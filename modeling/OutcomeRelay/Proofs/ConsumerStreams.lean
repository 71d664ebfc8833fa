import OutcomeRelay.Proofs.BusCustody

/-!
Streams of consumers. A consumer that is polled while the connection is lost fails, and from then on
its stream is over, as it is after the consumer was cancelled or closed. The loss is seen by polls
alone: a consumer that is not polled before the connection is back goes on as if nothing happened.
-/

namespace OutcomeRelay

namespace Broker

section Reachable

variable (b : Broker)

theorem reachable_enqueueAll (m : StoredMessage) (queues : List String) :
    (b.enqueueAll m queues).reachable = b.reachable := by
  induction queues generalizing b with
  | nil => rfl
  | cons queue queues ih => exact ih (b.enqueue m queue)

theorem reachable_route (m : StoredMessage) : (b.route m).1.reachable = b.reachable := by
  unfold route
  split
  · rfl
  · exact b.reachable_enqueueAll m _

theorem reachable_send (o : Outbound) : (b.send o).1.reachable = b.reachable := by
  have hroute := reachable_route { b with sendAttempts := b.sendAttempts + 1 } (fresh o)
  unfold send whenReachable
  dsimp only
  split
  · split
    all_goals
      next heq =>
      rw [heq] at hroute
      exact hroute
  · rfl

theorem reachable_poll (c : Consumer) : (b.poll c).1.reachable = b.reachable := by
  unfold poll
  dsimp only
  repeat' split
  all_goals rfl

theorem reachable_release (queue : String) (tag : Nat) :
    (b.release queue tag).1.reachable = b.reachable := by
  unfold release
  repeat' split
  all_goals rfl

theorem reachable_ack (queue : String) (tag : Nat) :
    (b.ack queue tag).1.reachable = b.reachable := by
  have hrelease := b.reachable_release queue tag
  unfold ack
  split
  all_goals
    next heq =>
    rw [heq] at hrelease
    exact hrelease

theorem reachable_deadLetter (queue : String) (m : StoredMessage) :
    (b.deadLetter queue m).1.reachable = b.reachable := by
  unfold deadLetter
  split
  · rfl
  · next t ht =>
    have hroute := b.reachable_route (deadAt m t)
    dsimp only
    split
    all_goals
      next heq =>
      change b.route (deadAt m t) = _ at heq
      rw [heq] at hroute
      exact hroute

theorem reachable_reject (queue : String) (tag : Nat) (back : Bool) :
    (b.reject queue tag back).1.reachable = b.reachable := by
  have hrelease := b.reachable_release queue tag
  unfold reject
  split
  · next heq =>
    rw [heq] at hrelease
    exact hrelease
  · next b' m heq =>
    rw [heq] at hrelease
    split
    · exact hrelease
    · exact (b'.reachable_deadLetter queue m).trans hrelease

theorem reachable_close (c : Consumer) : (b.close c).1.reachable = b.reachable := by
  unfold close
  dsimp only
  repeat' split
  all_goals rfl

theorem reachable_declareExchange (spec : ExchangeSpec) :
    (b.declareExchange spec).1.reachable = b.reachable := by
  unfold declareExchange whenReachable
  repeat' split
  all_goals rfl

theorem reachable_declareQueue (spec : QueueSpec) :
    (b.declareQueue spec).1.reachable = b.reachable := by
  unfold declareQueue whenReachable
  repeat' split
  all_goals rfl

theorem reachable_bind (r : Binding) : (b.bind r).1.reachable = b.reachable := by
  unfold Broker.bind whenReachable
  repeat' split
  all_goals rfl

theorem reachable_declareEntity (e : Topology.Entity) :
    (b.declareEntity e).1.reachable = b.reachable := by
  cases e with
  | exchange spec => exact b.reachable_declareExchange spec
  | queue spec => exact b.reachable_declareQueue spec
  | binding r => exact b.reachable_bind r

theorem reachable_declare (t : Topology) : (b.declare t).1.reachable = b.reachable :=
  Bus.declare_induction (P := fun b' => b'.reachable = b.reachable)
    (fun b' e h => (b'.reachable_declareEntity e).trans h) rfl t

end Reachable

variable {b : Broker} {c : Consumer}

theorem poll_of_over (h : c.cancelled = true) : b.poll c = (b, c, .ended) := by
  rw [poll, if_pos h]

theorem poll_of_lost (h : c.cancelled = false) (hr : b.reachable = false) :
    b.poll c = (b, { c with cancelled := true },
      .failed (.connection s!"Connection lost while consuming '{c.queue}'")) := by
  simp [poll, h, hr]

theorem poll_of_open (h : c.cancelled = false) (hr : b.reachable = true) :
    (b.poll c).2.1 = c ∧ (∀ error, (b.poll c).2.2 ≠ .failed error) ∧ (b.poll c).2.2 ≠ .ended := by
  unfold poll
  rw [if_neg (by simp [h]), if_neg (by simp [hr])]
  dsimp only
  repeat' split
  all_goals exact ⟨rfl, nofun, nofun⟩

theorem close_cancelled (b : Broker) (c : Consumer) : (b.close c).2.1.cancelled = true := by
  unfold close
  dsimp only
  repeat' split
  all_goals rfl

end Broker

namespace Bus

open Broker

def Op.connection? : Op → Option Bool
  | .setReachable v => some v
  | _ => none

theorem reachable_perform (s : Bus) (op : Op) :
    (s.perform op).1.broker.reachable = op.connection?.getD s.broker.reachable := by
  cases op with
  | declare t => exact s.broker.reachable_declare t
  | declareEntity e => exact s.broker.reachable_declareEntity e
  | send o => exact s.broker.reachable_send o
  | consume queue prefetch =>
    rcases s.broker.consume_cases queue prefetch with ⟨e, he⟩ | hok
    · simp [perform, he, Op.connection?]
    · simp [perform, hok, Op.connection?]
  | poll id =>
    simp only [perform]
    split
    · rfl
    · exact s.broker.reachable_poll _
  | cancel id =>
    simp only [perform]
    split <;> rfl
  | close id =>
    simp only [perform]
    split
    · rfl
    · exact s.broker.reachable_close _
  | ack queue tag => exact s.broker.reachable_ack queue tag
  | reject queue tag back => exact s.broker.reachable_reject queue tag back
  | setReachable v => cases v <;> rfl

def Entry.endsStream (e : Entry) (id : Nat) : Bool :=
  match e.op, e.reply with
  | .cancel k, .done | .close k, .done | .poll k, .polled (.failed _) => k == id
  | _, _ => false

theorem endsStream_poll {b b' : Broker} {id k : Nat} {result : Polled}
    (h : ∀ error, result ≠ .failed error) :
    (⟨b, .poll id, .polled result, b'⟩ : Entry).endsStream k = false := by
  cases result with
  | failed error => exact absurd rfl (h error)
  | ended | delivered | pending => rfl

def over? (s : Bus) (id : Nat) : Option Bool :=
  (s.consumer? id).map Consumer.cancelled

inductive StreamTurn (s s' : Bus) (e : Entry) (id : Nat) : Prop where
  | kept (same : s'.over? id = s.over? id) (unopened : e.reply ≠ .opened id)
      (unended : e.endsStream id = false)
  | opened (new : s.over? id = none) (now : s'.over? id = some false)
      (opened : e.reply = .opened id) (unended : e.endsStream id = false)
  | ended (known : (s.over? id).isSome) (now : s'.over? id = some true)
      (unopened : e.reply ≠ .opened id) (ended : e.endsStream id = true)

section Turns

variable {s : Bus} {id : Nat}

theorem over?_setConsumer {c c' : Consumer} (b : Broker) (h : s.consumer? c.id = some c)
    (hid : c'.id = c.id) (k : Nat) :
    (({ s with broker := b } : Bus).setConsumer c').over? k =
      if k = c.id then some c'.cancelled else s.over? k := by
  have hsame : ({ s with broker := b } : Bus).consumer? k = s.consumer? k := rfl
  rw [over?, over?, consumer?_setConsumer, hsame, hid]
  split
  · next hk => rw [hk, h, Option.map_some, Option.map_some]
  · rfl

theorem over?_setConsumer_self {c : Consumer} (b : Broker) (h : s.consumer? c.id = some c)
    (k : Nat) : (({ s with broker := b } : Bus).setConsumer c).over? k = s.over? k := by
  rw [over?_setConsumer b h rfl]
  split
  · next hk => rw [hk, over?, h, Option.map_some]
  · rfl

theorem streamTurn_of_end {c : Consumer} {e : Entry} (b : Broker) (c' : Consumer)
    (h : s.consumer? c.id = some c) (hid : c'.id = c.id) (hover : c'.cancelled = true)
    (hreply : ∀ k, e.reply ≠ .opened k) (hends : ∀ k, e.endsStream k = (c.id == k)) (k : Nat) :
    StreamTurn s (({ s with broker := b } : Bus).setConsumer c') e k := by
  have hset := over?_setConsumer b h hid k
  by_cases hk : k = c.id
  · subst hk
    rw [if_pos rfl, hover] at hset
    have hknown : (s.over? c.id).isSome := by rw [over?, h]; rfl
    exact .ended hknown hset (hreply c.id) ((hends c.id).trans (beq_self_eq_true c.id))
  · rw [if_neg hk] at hset
    exact .kept hset (hreply k) ((hends k).trans (beq_eq_false_iff_ne.mpr (Ne.symm hk)))

theorem over?_append {c : Consumer} (b : Broker) (hnew : s.consumer? c.id = none) (k : Nat) :
    (⟨b, s.consumers ++ [c]⟩ : Bus).over? k = if k = c.id then some c.cancelled else s.over? k := by
  rw [over?, consumer?_append b hnew, over?]
  split <;> rfl

theorem Registered.over?_new (hs : Registered s) : s.over? (s.broker.lastConsumer + 1) = none := by
  rw [over?, hs.consumer?_new, Option.map_none]

theorem streamTurn_poll {c : Consumer} (hc : s.consumer? c.id = some c) (after : Broker) (k : Nat) :
    StreamTurn s
      (({ s with broker := (s.broker.poll c).1 } : Bus).setConsumer (s.broker.poll c).2.1)
      ⟨s.broker, .poll c.id, .polled (s.broker.poll c).2.2, after⟩ k := by
  by_cases hover : c.cancelled = true
  · rw [poll_of_over hover]
    exact .kept (over?_setConsumer_self _ hc k) (by simp) rfl
  · rw [Bool.not_eq_true] at hover
    by_cases hr : s.broker.reachable = true
    · obtain ⟨hsame, hfailed, -⟩ := poll_of_open hover hr
      rw [hsame]
      exact .kept (over?_setConsumer_self _ hc k) (by simp) (endsStream_poll hfailed)
    · rw [Bool.not_eq_true] at hr
      rw [poll_of_lost hover hr]
      refine streamTurn_of_end _ { c with cancelled := true } hc rfl rfl ?_ ?_ k
      · simp
      · exact fun _ => rfl

theorem streamTurn_perform (hs : Registered s) (op : Op) (k : Nat) :
    StreamTurn s (s.perform op).1
      ⟨s.broker, op, (s.perform op).2, (s.perform op).1.broker⟩ k := by
  cases op with
  | declare t | declareEntity t | ack _ t | reject _ t _ =>
    exact .kept rfl (Reply.ofResult_ne_opened _ _) rfl
  | setReachable v => exact .kept rfl (by simp [perform]) rfl
  | send o =>
    refine .kept rfl ?_ rfl
    simp only [perform]
    split <;> simp
  | consume queue prefetch =>
    simp only [perform]
    rcases s.broker.consume_cases queue prefetch with ⟨e, he⟩ | hok
    · rw [he]
      exact .kept rfl (by simp) rfl
    · rw [hok]
      have happend := over?_append { s.broker with lastConsumer := s.broker.lastConsumer + 1 }
        (c := ⟨s.broker.lastConsumer + 1, queue, prefetch, false⟩) hs.consumer?_new k
      by_cases hk : k = s.broker.lastConsumer + 1
      · subst hk
        rw [if_pos rfl] at happend
        exact .opened hs.over?_new happend rfl rfl
      · rw [if_neg hk] at happend
        refine .kept happend (fun heq => ?_) rfl
        injection heq with heq
        exact hk heq.symm
  | poll id =>
    simp only [perform]
    split
    · exact .kept rfl (by simp) rfl
    · next c hc =>
      obtain rfl := id_of_consumer? hc
      exact streamTurn_poll hc _ k
  | cancel id =>
    simp only [perform]
    split
    · exact .kept rfl (by simp) rfl
    · next c hc =>
      obtain rfl := id_of_consumer? hc
      refine streamTurn_of_end _ (Broker.cancel c) hc rfl rfl ?_ ?_ k
      · simp
      · exact fun _ => rfl
  | close id =>
    simp only [perform]
    split
    · exact .kept rfl (by simp) rfl
    · next c hc =>
      obtain rfl := id_of_consumer? hc
      refine streamTurn_of_end _ (s.broker.close c).2.1 hc (s.broker.close_consumer c).1
        (s.broker.close_cancelled c) ?_ ?_ k
      · simp
      · exact fun _ => rfl

end Turns

namespace History

def connected (h : History) : Bool :=
  (h.entries.filterMap fun e => e.op.connection?).getLast?.getD true

def Opened (h : History) (id : Nat) : Prop :=
  ∃ e ∈ h.entries, e.reply = .opened id

def Ended (h : History) (id : Nat) : Prop :=
  ∃ e ∈ h.entries, e.endsStream id = true

/-- The consumer was opened, and neither cancelled nor closed, nor did a poll of it fail. -/
def IsOpen (h : History) (id : Nat) : Prop :=
  h.Opened id ∧ ¬ h.Ended id

instance (h : History) (id : Nat) : Decidable (h.IsOpen id) := by
  unfold IsOpen Opened Ended
  infer_instance

structure Streams (h : History) (id : Nat) : Prop where
  ended : h.Ended id → (h.next (.poll id)).reply = .polled .ended
  lost : h.IsOpen id → h.connected = false → ∃ queue, h.bus.queueOf? id = some queue ∧
    (h.next (.poll id)).reply =
      .polled (.failed (.connection s!"Connection lost while consuming '{queue}'"))
  alive : h.IsOpen id → h.connected = true → ∃ result,
    (h.next (.poll id)).reply = .polled result ∧ (∀ e, result ≠ .failed e) ∧ result ≠ .ended

variable {h : History} {id : Nat}

theorem opened_perform (op : Op) :
    (h.perform op).1.Opened id ↔ h.Opened id ∨ (h.next op).reply = .opened id := by
  simp [Opened, entries_perform, or_and_right, exists_or]

theorem ended_perform (op : Op) :
    (h.perform op).1.Ended id ↔ h.Ended id ∨ (h.next op).endsStream id = true := by
  simp [Ended, entries_perform, or_and_right, exists_or]

theorem connected_perform (op : Op) :
    (h.perform op).1.connected = op.connection?.getD h.connected := by
  simp only [connected, entries_perform, List.filterMap_append]
  cases hop : op.connection? with
  | none => simp [next, hop]
  | some v => simp [next, hop]

theorem connected_run (ops : List Op) :
    (run ops).broker.reachable = (run ops).connected := by
  refine run_induction (P := fun h => h.broker.reachable = h.connected) rfl ?_ ops
  intro h op ih
  rw [connected_perform, ← ih]
  exact reachable_perform h.bus op

structure Standing (h : History) (id : Nat) : Prop where
  opened : h.Opened id ↔ (h.bus.over? id).isSome
  ended : h.Ended id ↔ h.bus.over? id = some true

theorem Standing.perform (hs : Standing h id) (hregistered : Registered h.bus) (op : Op) :
    Standing (h.perform op).1 id := by
  have hturn : StreamTurn h.bus (h.perform op).1.bus (h.next op) id :=
    streamTurn_perform hregistered op id
  constructor
  · rw [opened_perform, hs.opened]
    cases hturn with
    | kept same unopened unended => simp [same, unopened]
    | opened new now opened unended => simp [now, opened]
    | ended known now unopened ended => simp [now, known]
  · rw [ended_perform, hs.ended]
    cases hturn with
    | kept same unopened unended => simp [same, unended]
    | opened new now opened unended => simp [new, now, unended]
    | ended known now unopened ended => simp [now, ended]

theorem standing_run (ops : List Op) (id : Nat) : Standing (run ops) id := by
  have hboth : Registered (run ops).bus ∧ Standing (run ops) id := by
    refine run_induction (P := fun h => Registered h.bus ∧ Standing h id) ?_ ?_ ops
    · exact ⟨registered_run [], by simp [Opened, over?, consumer?],
        by simp [Ended, over?, consumer?]⟩
    · intro h op ih
      exact ⟨registered_perform ih.1 op, ih.2.perform ih.1 op⟩
  exact hboth.2

theorem Standing.consumer_of_isOpen (hs : Standing h id) (hopen : h.IsOpen id) :
    ∃ c, h.bus.consumer? id = some c ∧ c.cancelled = false := by
  obtain ⟨hopened, hgoing⟩ := hopen
  rw [hs.opened, Option.isSome_iff_exists] at hopened
  rw [hs.ended] at hgoing
  obtain ⟨v, hover⟩ := hopened
  obtain ⟨c, hc, rfl⟩ := Option.map_eq_some_iff.mp hover
  rw [hover, Option.some.injEq, Bool.not_eq_true] at hgoing
  exact ⟨c, hc, hgoing⟩

theorem reply_poll {c : Consumer} (hc : h.bus.consumer? id = some c) :
    (h.next (.poll id)).reply = .polled (h.broker.poll c).2.2 := by
  simp only [next, Bus.perform, hc]
  rfl

/-- A stream that ended stays ended; one that is open fails with the next poll exactly if the
connection is lost at that time. -/
theorem streams_of_run (ops : List Op) (id : Nat) : (run ops).Streams id := by
  have hs := standing_run ops id
  have hconnected := connected_run ops
  refine ⟨fun hended => ?_, fun hopen hlost => ?_, fun hopen hback => ?_⟩
  · obtain ⟨c, hc, hover⟩ := Option.map_eq_some_iff.mp (hs.ended.mp hended)
    rw [reply_poll hc, poll_of_over hover]
  · obtain ⟨c, hc, hgoing⟩ := hs.consumer_of_isOpen hopen
    refine ⟨c.queue, by rw [queueOf?, hc, Option.map_some], ?_⟩
    rw [reply_poll hc, poll_of_lost hgoing (hconnected.trans hlost)]
  · obtain ⟨c, hc, hgoing⟩ := hs.consumer_of_isOpen hopen
    have hpoll := poll_of_open hgoing (hconnected.trans hback)
    exact ⟨_, reply_poll hc, hpoll.2⟩

/-- A consumer that is not polled during an outage is handed messages after it. -/
theorem not_failed_of_short_outage :
    ¬ ∀ (ops later : List Op) (id : Nat), (run ops).IsOpen id →
      (∀ op ∈ later, op ≠ .poll id ∧ op ≠ .cancel id ∧ op ≠ .close id) →
      ∀ result, (∀ epoch, result ≠ .pending epoch) →
        ((run (ops ++ .setReachable false :: later)).next (.poll id)).reply = .polled result →
        ∃ reason, result = .failed (.connection reason) := by
  intro h
  obtain ⟨reason, hfailed⟩ := h
    [.declareEntity (.exchange ⟨"orders", .topic, true⟩),
      .declareEntity (.queue ⟨"work", true, none⟩),
      .declareEntity (.binding ⟨"work", "orders", "order.#"⟩), .consume "work" 1]
    [.setReachable true, .send ⟨"orders", "order.created", [], "m1", "text/plain", true⟩] 1
    (by decide) (by decide)
    (.delivered (delivery "work" 1 ⟨1, "orders", "order.created", [], some "m1", false, 0⟩))
    nofun (by decide)
  cases hfailed

end History
end Bus
end OutcomeRelay
