import OutcomeRelay.Proofs.BusDeliveries
import OutcomeRelay.Proofs.ConsumerStreams
import OutcomeRelay.Proofs.OutcomeRouting

/-!
Requests for the path of an outcome: messages sent along it, consumers of its work queue, and what
they do with their deliveries. A consumer and a delivery are named by the request that they came
from, so that requests for one path mean the same whatever else is asked of the broker.
-/

namespace OutcomeRelay

namespace TopologyNames

variable (n : TopologyNames)

/-- The message has the routing key of the outcome, and is none for the dead-letter queue of
another one. -/
def Concerns (s : PaymentStatus) (o : Outbound) : Prop :=
  o.routingKey = (n.routes.target s).routingKey ∧
    ∀ s', s' ≠ s → ¬ (o.exchange = n.dlxExchange ∧ o.routingKey = n.deadLetterKey s')

variable {n}

theorem Parted.concerns_of_route (hn : n.Parted) {s : PaymentStatus} {o : Outbound}
    (hexchange : o.exchange = n.exchange) (hkey : o.routingKey = (n.routes.target s).routingKey) :
    n.Concerns s o :=
  ⟨hkey, fun _ _ h => exchanges_ne hn.sound (hexchange.symm.trans h.1)⟩

end TopologyNames

namespace Broker

variable {b b' : Broker} {n : TopologyNames}

theorem SameGraph.realizes {t : Topology} (h : SameGraph b b') (hb : b.Realizes t) :
    b'.Realizes t where
  exchanges name := by
    rw [exchange?, h.exchanges]
    exact hb.exchanges name
  specs name := (h.specs name).trans (hb.specs name)
  bindings r := by rw [h.bindings, hb.bindings]
  nodup := h.bindings ▸ hb.nodup

theorem Realizes.isSome_workQueue (hb : b.Realizes n.topology) (s : PaymentStatus) :
    (b.queue? (n.workQueue s)).isSome := by
  rw [← isSome_spec?, hb.specs, Topology.queue?, List.find?_isSome]
  cases s
  · exact ⟨_, .head _, beq_self_eq_true _⟩
  · exact ⟨_, .tail _ (.head _), beq_self_eq_true _⟩

theorem binding_of_knownTarget {x k queue : String} (h : queue ∈ b.knownTargets x k) :
    ∃ e r, b.exchange? x = some e ∧ r ∈ b.bindings ∧ r.exchange = x ∧
      e.kind.selects r.routingKey k = true ∧ r.queue = queue := by
  have hmem := (List.mem_filter.mp h).1
  rw [targets] at hmem
  cases he : b.exchange? x with
  | none =>
    rw [he] at hmem
    cases hmem
  | some e =>
    rw [he, Option.map_some, Option.getD_some] at hmem
    obtain ⟨r, hr, hqueue⟩ := List.mem_map.mp hmem
    obtain ⟨hbinding, hselects⟩ := List.mem_filter.mp hr
    rw [Bool.and_eq_true, beq_iff_eq] at hselects
    exact ⟨e, r, rfl, hbinding, hselects.1, hselects.2, hqueue⟩

theorem Realizes.not_mem_knownTargets (hb : b.Realizes n.topology) (hn : n.Parted) {x k : String}
    {s : PaymentStatus} (hroute : x = n.exchange → k ≠ (n.routes.target s).routingKey)
    (hdead : x = n.dlxExchange → k ≠ n.deadLetterKey s) :
    n.workQueue s ∉ b.knownTargets x k ∧ n.deadLetterQueue s ∉ b.knownTargets x k := by
  have hsound := hn.sound
  have htopic : b.exchange? n.exchange = some ⟨n.exchange, .topic, true⟩ :=
    (hb.exchanges _).trans (hsound.exchange?_of_mem (e := ⟨n.exchange, .topic, true⟩) (.head _))
  have hdirect : b.exchange? n.dlxExchange = some ⟨n.dlxExchange, .direct, true⟩ :=
    (hb.exchanges _).trans
      (hsound.exchange?_of_mem (e := ⟨n.dlxExchange, .direct, true⟩) (.tail _ (.head _)))
  refine ⟨fun h => ?_, fun h => ?_⟩
  all_goals
    obtain ⟨e, r, he, hr, hexchange, hselects, hqueue⟩ := binding_of_knownTarget h
    obtain ⟨s', rfl | rfl⟩ := n.mem_bindings.mp ((hb.bindings r).mp hr)
  · obtain rfl : s' = s := (TopologyNames.workQueue_inj hsound).mp hqueue
    obtain rfl : n.exchange = x := hexchange
    obtain rfl := Option.some.inj (htopic.symm.trans he)
    rw [ExchangeKind.selects, TopologyNames.routeBinding,
      Pattern.matchesKey_literal (hn.literal s'), decide_eq_true_eq] at hselects
    exact hroute rfl hselects.symm
  · exact absurd hqueue.symm (TopologyNames.workQueue_ne_deadLetterQueue hsound s s')
  · exact absurd hqueue (TopologyNames.workQueue_ne_deadLetterQueue hsound s' s)
  · obtain rfl : s' = s := (TopologyNames.deadLetterQueue_inj hsound).mp hqueue
    obtain rfl : n.dlxExchange = x := hexchange
    obtain rfl := Option.some.inj (hdirect.symm.trans he)
    exact hdead rfl (beq_iff_eq.mp hselects).symm

end Broker

namespace Bus

/-- What a client asks for the path of an outcome. Consumers and deliveries are named by the
requests for this path that they came from. -/
inductive Request where
  | send (message : Outbound)
  | consume (prefetch : Nat)
  | recv (consumer : Nat)
  | cancel (consumer : Nat)
  | close (consumer : Nat)
  | ack (delivery : Nat)
  | reject (delivery : Nat) (back : Bool)
  deriving DecidableEq, Repr

def Request.Concerns (n : TopologyNames) (s : PaymentStatus) : Request → Prop
  | .send o => n.Concerns s o
  | _ => True

namespace Reply

def consumer? : Reply → Option Nat
  | .opened id => some id
  | _ => none

def delivery? : Reply → Option Delivery
  | .polled (.delivered d) => some d
  | _ => none

def tag? (r : Reply) : Option Nat :=
  r.delivery?.map Delivery.tag

theorem delivery?_eq_some {r : Reply} {d : Delivery} :
    r.delivery? = some d ↔ r = .polled (.delivered d) := by
  constructor
  · intro h
    unfold delivery? at h
    split at h <;> cases h
    rfl
  · rintro rfl
    rfl

end Reply

/-- A bus with the replies to the requests for each path. A request about a consumer or a delivery
that there is not has none. -/
structure Paths where
  bus : Bus
  replies : PaymentStatus → List (Option Reply)

namespace Paths

def reply? (p : Paths) (s : PaymentStatus) (k : Nat) : Option Reply :=
  ((p.replies s)[k]?).join

def consumer? (p : Paths) (s : PaymentStatus) (k : Nat) : Option Nat :=
  (p.reply? s k).bind Reply.consumer?

def delivery? (p : Paths) (s : PaymentStatus) (k : Nat) : Option Delivery :=
  (p.reply? s k).bind Reply.delivery?

def op? (n : TopologyNames) (p : Paths) (s : PaymentStatus) : Request → Option Op
  | .send o => some (.send o)
  | .consume prefetch => some (.consume (n.workQueue s) prefetch)
  | .recv k => (p.consumer? s k).map .poll
  | .cancel k => (p.consumer? s k).map .cancel
  | .close k => (p.consumer? s k).map .close
  | .ack k => (p.delivery? s k).map fun d => .ack d.queue d.tag
  | .reject k back => (p.delivery? s k).map fun d => .reject d.queue d.tag back

def answer (p : Paths) (b : Bus) (s : PaymentStatus) (reply : Option Reply) : Paths where
  bus := b
  replies := Function.update p.replies s (p.replies s ++ [reply])

def perform (n : TopologyNames) (p : Paths) (s : PaymentStatus) (r : Request) : Paths :=
  match p.op? n s r with
  | none => p.answer p.bus s none
  | some op => p.answer (p.bus.perform op).1 s (some (p.bus.perform op).2)

def start (n : TopologyNames) : Paths where
  bus := { broker := (({} : Broker).declare n.topology).1 }
  replies _ := []

def steps (n : TopologyNames) (p : Paths) (asked : List (PaymentStatus × Request)) : Paths :=
  asked.foldl (fun p x => p.perform n x.1 x.2) p

def run (n : TopologyNames) (asked : List (PaymentStatus × Request)) : Paths :=
  (start n).steps n asked

def requestsFor (s : PaymentStatus) (asked : List (PaymentStatus × Request)) : List Request :=
  (asked.filter fun x => x.1 == s).map Prod.snd

variable {p : Paths} {n : TopologyNames} {s s' : PaymentStatus}

theorem perform_of_none {r : Request} (h : p.op? n s r = none) :
    p.perform n s r = p.answer p.bus s none := by
  rw [perform, h]

theorem perform_of_some {r : Request} {op : Op} (h : p.op? n s r = some op) :
    p.perform n s r = p.answer (p.bus.perform op).1 s (some (p.bus.perform op).2) := by
  rw [perform, h]

theorem replies_answer (p : Paths) (b : Bus) (s : PaymentStatus) (reply : Option Reply) :
    (p.answer b s reply).replies s = p.replies s ++ [reply] :=
  Function.update_self ..

theorem replies_answer_of_ne (p : Paths) (b : Bus) (reply : Option Reply) (h : s' ≠ s) :
    (p.answer b s reply).replies s' = p.replies s' :=
  Function.update_of_ne h ..

theorem reply?_answer (p : Paths) (b : Bus) (s s' : PaymentStatus) (reply : Option Reply)
    (k : Nat) : (p.answer b s reply).reply? s' k =
      if s' = s ∧ k = (p.replies s).length then reply else p.reply? s' k := by
  by_cases hs : s' = s
  · subst hs
    rw [reply?, replies_answer, List.getElem?_append, reply?]
    rcases Nat.lt_trichotomy k (p.replies s').length with hlt | heq | hgt
    · rw [if_pos hlt, if_neg fun h => Nat.ne_of_lt hlt h.2]
    · subst heq
      rw [if_neg (Nat.lt_irrefl _), Nat.sub_self, if_pos ⟨rfl, rfl⟩]
      rfl
    · rw [if_neg (Nat.lt_asymm hgt), if_neg fun h => Nat.ne_of_gt hgt h.2,
        List.getElem?_eq_none (Nat.le_of_lt hgt), List.getElem?_eq_none]
      rw [List.length_singleton]
      omega
  · rw [reply?, replies_answer_of_ne p b reply hs, if_neg fun h => hs h.1, reply?]

theorem lt_length_of_reply? {k : Nat} {reply : Reply} (h : p.reply? s k = some reply) :
    k < (p.replies s).length := by
  refine Nat.lt_of_not_le fun hle => ?_
  rw [reply?, List.getElem?_eq_none hle] at h
  cases h

structure Once (f : Reply → Option Nat) (last : Nat) (p : Paths) : Prop where
  bounded : ∀ s k x, (p.reply? s k).bind f = some x → x ≤ last
  unique : ∀ s k s' k' x, (p.reply? s k).bind f = some x → (p.reply? s' k').bind f = some x →
    s = s' ∧ k = k'

theorem Once.answer {f : Reply → Option Nat} {last last' : Nat} {b : Bus}
    {reply : Option Reply} (h : p.Once f last) (hlast : last ≤ last')
    (hnew : ∀ x, reply.bind f = some x → last < x ∧ x ≤ last') :
    (p.answer b s reply).Once f last' := by
  refine ⟨fun s₁ k x hx => ?_, fun s₁ k₁ s₂ k₂ x hx hx' => ?_⟩
  · rw [reply?_answer] at hx
    split at hx
    · exact (hnew x hx).2
    · exact Nat.le_trans (h.bounded s₁ k x hx) hlast
  · rw [reply?_answer] at hx hx'
    split at hx <;> split at hx'
    · next heq heq' => exact ⟨heq.1.trans heq'.1.symm, heq.2.trans heq'.2.symm⟩
    · have habove := (hnew x hx).1
      have hbelow := h.bounded s₂ k₂ x hx'
      omega
    · have habove := (hnew x hx').1
      have hbelow := h.bounded s₁ k₁ x hx
      omega
    · exact h.unique s₁ k₁ s₂ k₂ x hx hx'

structure Orderly (n : TopologyNames) (p : Paths) : Prop where
  reachable : p.bus.broker.reachable = true
  graph : Broker.SameGraph (start n).bus.broker p.bus.broker
  registered : Registered p.bus
  consumers : p.Once Reply.consumer? p.bus.broker.lastConsumer
  tags : p.Once Reply.tag? p.bus.broker.lastTag
  seated : ∀ s k id, p.consumer? s k = some id → p.bus.queueOf? id = some (n.workQueue s)
  queued : ∀ s k d, p.delivery? s k = some d → d.queue = n.workQueue s

def OnPath (n : TopologyNames) (s : PaymentStatus) (b : Bus) : Op → Prop
  | .send o => n.Concerns s o
  | .consume queue _ | .ack queue _ | .reject queue _ _ => queue = n.workQueue s
  | .poll id | .cancel id | .close id => b.queueOf? id = some (n.workQueue s)
  | _ => False

theorem OnPath.connection? {b : Bus} {op : Op} (h : OnPath n s b op) : op.connection? = none := by
  cases op <;> first | rfl | exact h.elim

theorem OnPath.not_declares {b : Bus} {op : Op} (h : OnPath n s b op) : ¬ op.Declares := by
  intro hdeclares
  cases op <;> exact absurd hdeclares (by first | exact h.elim | exact id)

namespace Orderly

theorem onPath (hp : p.Orderly n) {r : Request} (hr : r.Concerns n s) {op : Op}
    (hop : p.op? n s r = some op) : OnPath n s p.bus op := by
  cases r with
  | send o =>
    cases hop
    exact hr
  | consume prefetch =>
    cases hop
    rfl
  | recv k | cancel k | close k =>
    obtain ⟨id, hid, rfl⟩ := Option.map_eq_some_iff.mp hop
    exact hp.seated s k id hid
  | ack k | reject k back =>
    obtain ⟨d, hd, rfl⟩ := Option.map_eq_some_iff.mp hop
    exact hp.queued s k d hd

theorem answer (hp : p.Orderly n) {b : Bus} {reply : Option Reply}
    (reachable : b.broker.reachable = true)
    (graph : Broker.SameGraph p.bus.broker b.broker) (registered : Registered b)
    (queues : ∀ id queue, p.bus.queueOf? id = some queue → b.queueOf? id = some queue)
    (lastConsumer : p.bus.broker.lastConsumer ≤ b.broker.lastConsumer)
    (lastTag : p.bus.broker.lastTag ≤ b.broker.lastTag)
    (opened : ∀ id, reply.bind Reply.consumer? = some id → p.bus.broker.lastConsumer < id ∧
      id ≤ b.broker.lastConsumer ∧ b.queueOf? id = some (n.workQueue s))
    (delivered : ∀ d, reply.bind Reply.delivery? = some d → p.bus.broker.lastTag < d.tag ∧
      d.tag ≤ b.broker.lastTag ∧ d.queue = n.workQueue s) :
    (p.answer b s reply).Orderly n := by
  refine ⟨reachable, hp.graph.trans graph, registered, ?_, ?_, fun s₁ k id h => ?_,
    fun s₁ k d h => ?_⟩
  · exact hp.consumers.answer lastConsumer fun id h => ⟨(opened id h).1, (opened id h).2.1⟩
  · refine hp.tags.answer lastTag fun t h => ?_
    obtain ⟨r, hr, htag⟩ := Option.bind_eq_some_iff.mp h
    obtain ⟨d, hd, rfl⟩ := Option.map_eq_some_iff.mp htag
    have hnew := delivered d (Option.bind_eq_some_iff.mpr ⟨r, hr, hd⟩)
    exact ⟨hnew.1, hnew.2.1⟩
  · rw [consumer?, reply?_answer] at h
    split at h
    · next heq =>
      rw [heq.1]
      exact (opened id h).2.2
    · exact queues id _ (hp.seated s₁ k id h)
  · rw [delivery?, reply?_answer] at h
    split at h
    · next heq =>
      rw [heq.1]
      exact (delivered d h).2.2
    · exact hp.queued s₁ k d h

theorem perform (hp : p.Orderly n) {r : Request} (hr : r.Concerns n s) :
    (p.perform n s r).Orderly n := by
  unfold Paths.perform
  split
  · exact hp.answer hp.reachable (.refl _) hp.registered (fun _ _ h => h) (Nat.le_refl _)
      (Nat.le_refl _) nofun nofun
  · next op hop =>
    have hpath := hp.onPath hr hop
    have heffect := perform_effect p.bus op
    refine hp.answer ?_ (sameGraph_perform p.bus hpath.not_declares)
      (registered_perform hp.registered op) (fun _ _ h => queueOf?_perform hp.registered op h)
      heffect.lastConsumer heffect.lastTag (fun id h => ?_) fun d h => ?_
    · rw [reachable_perform, hpath.connection?]
      exact hp.reachable
    · have henrolled := enrolled_perform hp.registered op
      rw [Option.bind_some] at h
      generalize (p.bus.perform op).2 = reply at henrolled h
      cases henrolled with
      | same _ _ unopened =>
        cases reply <;> cases h
        exact absurd rfl (unopened _)
      | opened queues _ last =>
        cases h
        obtain rfl := hpath
        exact ⟨Nat.lt_succ_self _, Nat.le_of_eq last.symm, by rw [queues, if_pos rfl]⟩
    · rw [Option.bind_some] at h
      obtain ⟨id, rfl, hreply⟩ : ∃ id, op = .poll id ∧
          (p.bus.perform op).2 = .polled (.delivered d) := by
        have hpolled : (p.bus.perform op).2 = .polled (.delivered d) := Reply.delivery?_eq_some.mp h
        obtain ⟨id, hid⟩ := poll_of_polled hpolled
        exact ⟨id, hid, hpolled⟩
      obtain ⟨queue, m, hqueue, rfl, -, hlast⟩ := held_of_delivered hreply
      exact ⟨Nat.lt_succ_self _, Nat.le_of_eq hlast.symm,
        Option.some.inj (hqueue.symm.trans hpath)⟩

theorem steps {asked : List (PaymentStatus × Request)} (hp : p.Orderly n)
    (hasked : ∀ x ∈ asked, x.2.Concerns n x.1) : (p.steps n asked).Orderly n := by
  induction asked generalizing p with
  | nil => exact hp
  | cons x asked ih =>
    obtain ⟨hx, hrest⟩ := List.forall_mem_cons.mp hasked
    exact ih (hp.perform hx) hrest

theorem start (n : TopologyNames) : (start n).Orderly n := by
  have hquiet := quiet_declare {} n.topology
  refine ⟨Broker.reachable_declare {} n.topology, .refl _, ⟨nofun, fun name g hg => ?_⟩,
    ⟨nofun, nofun⟩, ⟨nofun, nofun⟩, nofun, nofun⟩
  rw [Paths.start, hquiet.messages.held] at hg
  cases hg

theorem realizes (hp : p.Orderly n) (hn : n.Parted) : p.bus.broker.Realizes n.topology :=
  hp.graph.realizes (Broker.declare_of_validate hn.valid).2

end Orderly

theorem consumer?_perform {b : Bus} (hb : Registered b) (hs : n.workQueue s' ≠ n.workQueue s)
    {op : Op} (hop : OnPath n s' b op) {id : Nat} (hid : b.queueOf? id = some (n.workQueue s)) :
    (b.perform op).1.consumer? id = b.consumer? id := by
  have hother : ∀ {k : Nat} {c : Consumer} (c' : Consumer) (b₁ : Broker),
      b.queueOf? k = some (n.workQueue s') → b.consumer? k = some c → c'.id = c.id →
      (({ b with broker := b₁ } : Bus).setConsumer c').consumer? id = b.consumer? id := by
    intro k c c' b₁ hk hc hc'
    rw [consumer?_setConsumer, if_neg]
    · rfl
    · intro heq
      rw [heq, hc', id_of_consumer? hc, hk] at hid
      exact hs (Option.some.inj hid)
  cases op with
  | declare | declareEntity | setReachable => exact hop.elim
  | send | ack | reject => rfl
  | consume queue prefetch =>
    rcases b.broker.consume_cases queue prefetch with ⟨e, he⟩ | hok
    · simp only [Bus.perform, he, Bus.consumer?]
    · simp only [Bus.perform, hok]
      rw [consumer?_append _ hb.consumer?_new, if_neg]
      intro heq
      rw [heq, hb.queueOf?_new] at hid
      cases hid
  | poll k =>
    unfold Bus.perform
    dsimp only
    split
    · rfl
    · next c hc => exact hother _ _ hop hc (b.broker.poll_consumer c).1
  | cancel k =>
    unfold Bus.perform
    dsimp only
    split
    · rfl
    · next c hc => exact hother _ b.broker hop hc rfl
  | close k =>
    unfold Bus.perform
    dsimp only
    split
    · rfl
    · next c hc => exact hother _ _ hop hc (b.broker.close_consumer c).1

theorem messages_perform {b : Bus} {op : Op} (hop : OnPath n s b op) {queue : String}
    (hwork : queue ≠ n.workQueue s)
    (hsent : ∀ o, op = .send o → queue ∉ b.broker.knownTargets o.exchange o.routingKey)
    (hdied : queue ∉ b.broker.deadTargets (b.broker.deadLetterTarget? (n.workQueue s))) :
    (b.perform op).1.broker.readyMessages queue = b.broker.readyMessages queue ∧
      (b.perform op).1.broker.heldMessages queue = b.broker.heldMessages queue := by
  have hchanged : ∀ {ready : List StoredMessage} {held : List HeldMessage} {b₁ b₂ : Broker},
      Broker.Changed (n.workQueue s) ready held b₁ b₂ →
      b₂.readyMessages queue = b₁.readyMessages queue ∧
        b₂.heldMessages queue = b₁.heldMessages queue := fun change =>
    ⟨(change.ready queue).trans (if_neg hwork), (change.held queue).trans (if_neg hwork)⟩
  have hposted : ∀ {m : StoredMessage} {targets : List String} {b₁ b₂ : Broker}
      {new : String → List StoredMessage}, Broker.Posted m targets b₁ b₂ new → queue ∉ targets →
      b₂.readyMessages queue = b₁.readyMessages queue ∧
        b₂.heldMessages queue = b₁.heldMessages queue := by
    intro m targets b₁ b₂ new put hnone
    have hnil : new queue = [] := by
      rw [← List.length_eq_zero_iff, put.count, List.count_eq_zero]
      exact hnone
    exact ⟨by rw [put.ready, hnil, List.append_nil], put.held queue⟩
  have heffect := perform_effect b op
  generalize (b.perform op).2 = reply at heffect
  generalize (b.perform op).1.broker = after at heffect
  cases heffect with
  | quiet _ same => exact ⟨same.messages.ready queue, same.messages.held queue⟩
  | posted put => exact hposted put (hsent _ rfl)
  | taken found _ change | closed found change =>
    have hqueue := hop
    rw [OnPath, queueOf?, found, Option.map_some, Option.some.injEq] at hqueue
    have hsame := hchanged (hqueue ▸ change)
    exact hsame
  | acked _ change | requeued _ change => exact hchanged (hop ▸ change)
  | died _ change put =>
    obtain rfl := hop
    obtain ⟨hready, hheld⟩ := hchanged change
    obtain ⟨hready', hheld'⟩ := hposted put hdied
    exact ⟨hready'.trans hready, hheld'.trans hheld⟩

theorem messages_of_other {b : Bus} (hn : n.Parted) (hb : b.broker.Realizes n.topology)
    (hs : s ≠ s') {op : Op} (hop : OnPath n s' b op) {queue : String}
    (hqueue : queue = n.workQueue s ∨ queue = n.deadLetterQueue s) :
    (b.perform op).1.broker.readyMessages queue = b.broker.readyMessages queue ∧
      (b.perform op).1.broker.heldMessages queue = b.broker.heldMessages queue := by
  have hother : queue ≠ n.workQueue s' := by
    rcases hqueue with rfl | rfl
    · exact mt (TopologyNames.workQueue_inj hn.sound).mp hs
    · exact (TopologyNames.workQueue_ne_deadLetterQueue hn.sound s' s).symm
  have hnone : ∀ {x k : String}, (x = n.exchange → k ≠ (n.routes.target s).routingKey) →
      (x = n.dlxExchange → k ≠ n.deadLetterKey s) → queue ∉ b.broker.knownTargets x k := by
    intro x k hroute hdead
    rcases hqueue with rfl | rfl
    · exact (hb.not_mem_knownTargets hn hroute hdead).1
    · exact (hb.not_mem_knownTargets hn hroute hdead).2
  refine messages_perform hop hother (fun o ho => ?_) ?_
  · subst ho
    obtain ⟨hkey, hforeign⟩ := hop
    refine hnone (fun _ => ?_) fun hx hk => hforeign s hs ⟨hx, hk⟩
    rw [hkey]
    exact mt hn.routingKey_inj.mp hs.symm
  · cases ht : b.broker.deadLetterTarget? (n.workQueue s') with
    | none => exact List.not_mem_nil
    | some t =>
      obtain ⟨s₁, hs₁, rfl⟩ := hb.dies_into ht
      obtain rfl := (TopologyNames.workQueue_inj hn.sound).mp hs₁
      refine hnone (fun hx => ?_) fun _ => mt hn.deadLetterKey_inj.mp hs.symm
      exact absurd hx.symm (TopologyNames.exchanges_ne hn.sound)

end Paths
end Bus
end OutcomeRelay
