import OutcomeRelay.Proofs.MirroredQueues
import OutcomeRelay.Proofs.PathRequests

/-!
The paths of the outcomes do not hear of each other. Two runs in which the same is asked for each
path, in the same order, give the same replies and leave the same in the queues, however the
requests for one path come between those for the other. Only the numbers of consumers and deliveries
differ, and numbers that the same request was given stand for each other.
-/

namespace OutcomeRelay

structure Consumer.Alike (c c' : Consumer) : Prop where
  queue : c'.queue = c.queue
  prefetch : c'.prefetch = c.prefetch
  cancelled : c'.cancelled = c.cancelled

namespace Bus

open Broker List Relator

inductive Reply.Alike (tags consumers : Nat → Nat → Prop) : Option Reply → Option Reply → Prop where
  | nothing : Alike tags consumers none none
  | done : Alike tags consumers (some .done) (some .done)
  | confirmed (c : Confirm) : Alike tags consumers (some (.confirmed c)) (some (.confirmed c))
  | opened {id id' : Nat} (same : consumers id id') :
      Alike tags consumers (some (.opened id)) (some (.opened id'))
  | polled {r r' : Polled} (same : PolledAlike tags r r') :
      Alike tags consumers (some (.polled r)) (some (.polled r'))
  | unknown {t t' : Nat} (same : tags t t') :
      Alike tags consumers (some (.failed (unknownTag t))) (some (.failed (unknownTag t')))

theorem Reply.Alike.mono {tags consumers tags' consumers' : Nat → Nat → Prop}
    {r r' : Option Reply} (h : Reply.Alike tags consumers r r')
    (htags : ∀ x x', tags x x' → tags' x x')
    (hconsumers : ∀ x x', consumers x x' → consumers' x x') :
    Reply.Alike tags' consumers' r r' := by
  cases h with
  | nothing => exact .nothing
  | done => exact .done
  | confirmed c => exact .confirmed c
  | opened same => exact .opened (hconsumers _ _ same)
  | polled same =>
    cases same with
    | ended => exact .polled .ended
    | pending => exact .polled (.pending _ _)
    | delivered same => exact .polled (.delivered (htags _ _ same))
  | unknown same => exact .unknown (htags _ _ same)

theorem Reply.alike_ofResult {tags consumers : Nat → Nat → Prop} {α : Type}
    {r r' : Except BusError α} (h : SettledAlike tags r r') :
    Reply.Alike tags consumers (some (.ofResult r)) (some (.ofResult r')) := by
  cases h with
  | done => exact .done
  | unknown same => exact .unknown same

def ConsumersAlike (consumers : Nat → Nat → Prop) (b b' : Bus) : Prop :=
  ∀ id id', consumers id id' →
    ∃ c c', b.consumer? id = some c ∧ b'.consumer? id' = some c' ∧ c.Alike c'

namespace ConsumersAlike

variable {consumers : Nat → Nat → Prop} {b b' : Bus}

theorem setConsumer (h : ConsumersAlike consumers b b') (hunique : BiUnique consumers)
    (b₁ b₁' : Broker) {c c' : Consumer} (hid : consumers c.id c'.id) (halike : c.Alike c') :
    ConsumersAlike consumers (({ b with broker := b₁ } : Bus).setConsumer c)
      (({ b' with broker := b₁' } : Bus).setConsumer c') := by
  intro id id' hsame
  obtain ⟨x, x', hx, hx', hxalike⟩ := h id id' hsame
  have hiff : id = c.id ↔ id' = c'.id := rel_eq hunique hsame hid
  rw [consumer?_setConsumer, consumer?_setConsumer]
  by_cases heq : id = c.id
  · refine ⟨c, c', ?_, ?_, halike⟩
    · rw [if_pos heq]
      exact congrArg (Option.map _) hx
    · rw [if_pos (hiff.mp heq)]
      exact congrArg (Option.map _) hx'
  · exact ⟨x, x', (if_neg heq).trans hx, (if_neg (mt hiff.mpr heq)).trans hx', hxalike⟩

theorem append (h : ConsumersAlike consumers b b') {c c' : Consumer} (b₁ b₁' : Broker)
    (hnew : b.consumer? c.id = none) (hnew' : b'.consumer? c'.id = none) (halike : c.Alike c')
    {id id' : Nat} (hsame : consumers id id' ∨ c.id = id ∧ c'.id = id') :
    ∃ x x', (⟨b₁, b.consumers ++ [c]⟩ : Bus).consumer? id = some x ∧
      (⟨b₁', b'.consumers ++ [c']⟩ : Bus).consumer? id' = some x' ∧ x.Alike x' := by
  rw [consumer?_append b₁ hnew, consumer?_append b₁' hnew']
  rcases hsame with hold | ⟨rfl, rfl⟩
  · obtain ⟨x, x', hx, hx', hxalike⟩ := h id id' hold
    refine ⟨x, x', ?_, ?_, hxalike⟩
    · rw [if_neg, hx]
      rintro rfl
      rw [hx] at hnew
      cases hnew
    · rw [if_neg, hx']
      rintro rfl
      rw [hx'] at hnew'
      cases hnew'
  · exact ⟨c, c', if_pos rfl, if_pos rfl, halike⟩

end ConsumersAlike

namespace Paths

def Same (f : Reply → Option Nat) (s : PaymentStatus) (p p' : Paths) (x x' : Nat) : Prop :=
  ∃ k, (p.reply? s k).bind f = some x ∧ (p'.reply? s k).bind f = some x'

section Same

variable {f : Reply → Option Nat} {s s' : PaymentStatus} {p p' : Paths} {last last' x x' : Nat}

theorem biUnique_same (h : p.Once f last) (h' : p'.Once f last') :
    BiUnique fun x x' => ∃ s, Same f s p p' x x' := by
  refine ⟨fun x y z => ?_, fun x y z => ?_⟩
  · rintro ⟨s, k, hx, hz⟩ ⟨s', k', hy, hz'⟩
    obtain ⟨rfl, rfl⟩ := h'.unique s k s' k' z hz hz'
    exact Option.some.inj (hx.symm.trans hy)
  · rintro ⟨s, k, hx, hy⟩ ⟨s', k', hx', hz⟩
    obtain ⟨rfl, rfl⟩ := h.unique s k s' k' x hx hx'
    exact Option.some.inj (hy.symm.trans hz)

theorem biUnique_same_of_path (h : p.Once f last) (h' : p'.Once f last') (s : PaymentStatus) :
    BiUnique (Same f s p p') := by
  obtain ⟨hleft, hright⟩ := biUnique_same h h'
  exact ⟨fun x y z hx hy => hleft ⟨s, hx⟩ ⟨s, hy⟩, fun x y z hy hz => hright ⟨s, hy⟩ ⟨s, hz⟩⟩

theorem same_answer (hlength : (p.replies s).length = (p'.replies s).length) (b b' : Bus)
    (reply reply' : Option Reply) :
    Same f s (p.answer b s reply) (p'.answer b' s reply') x x' ↔
      Same f s p p' x x' ∨ reply.bind f = some x ∧ reply'.bind f = some x' := by
  constructor
  · rintro ⟨k, hx, hx'⟩
    rw [reply?_answer] at hx hx'
    by_cases hk : k = (p.replies s).length
    · rw [if_pos ⟨rfl, hk⟩] at hx
      rw [if_pos ⟨rfl, hk.trans hlength⟩] at hx'
      exact .inr ⟨hx, hx'⟩
    · rw [if_neg fun h => hk h.2] at hx
      rw [if_neg fun h => hk (h.2.trans hlength.symm)] at hx'
      exact .inl ⟨k, hx, hx'⟩
  · rintro (⟨k, hx, hx'⟩ | ⟨hx, hx'⟩)
    · obtain ⟨r, hr, -⟩ := Option.bind_eq_some_iff.mp hx
      have hlt := lt_length_of_reply? hr
      refine ⟨k, ?_, ?_⟩
      · rw [reply?_answer, if_neg fun h => Nat.ne_of_lt hlt h.2, hx]
      · rw [reply?_answer, if_neg fun h => Nat.ne_of_lt (hlength ▸ hlt) h.2, hx']
    · refine ⟨(p.replies s).length, ?_, ?_⟩
      · rw [reply?_answer, if_pos ⟨rfl, rfl⟩, hx]
      · rw [reply?_answer, if_pos ⟨rfl, hlength⟩, hx']

theorem same_congr {p₁ p₁' : Paths} (h : p₁.replies s = p.replies s)
    (h' : p₁'.replies s = p'.replies s) : Same f s p₁ p₁' = Same f s p p' := by
  funext x x'
  simp only [Same, reply?, h, h']

end Same

abbrev SameTag : PaymentStatus → Paths → Paths → Nat → Nat → Prop :=
  Same Reply.tag?

abbrev SameConsumer : PaymentStatus → Paths → Paths → Nat → Nat → Prop :=
  Same Reply.consumer?

structure Agree (n : TopologyNames) (s : PaymentStatus) (p p' : Paths) : Prop where
  replies : Forall₂ (Reply.Alike (SameTag s p p') (SameConsumer s p p'))
    (p.replies s) (p'.replies s)
  consumers : ConsumersAlike (SameConsumer s p p') p.bus p'.bus
  work : Mirrors (SameTag s p p') (SameConsumer s p p') (n.workQueue s)
    p.bus.broker p'.bus.broker
  dead : Mirrors (SameTag s p p') (SameConsumer s p p') (n.deadLetterQueue s)
    p.bus.broker p'.bus.broker

structure Grows (f : Reply → Option Nat) (reply reply' : Option Reply) (R R' : Nat → Nat → Prop) :
    Prop where
  old : ∀ x x', R x x' → R' x x'
  new : ∀ x x', reply.bind f = some x → reply'.bind f = some x' → R' x x'

namespace Agree

variable {n : TopologyNames} {s : PaymentStatus} {p p' : Paths}

theorem answer (h : Agree n s p p') {b b' : Bus} {reply reply' : Option Reply}
    (alike : ∀ tags consumers, Grows Reply.tag? reply reply' (SameTag s p p') tags →
      Grows Reply.consumer? reply reply' (SameConsumer s p p') consumers →
      Reply.Alike tags consumers reply reply')
    (consumers : ∀ id id', SameConsumer s p p' id id' ∨
        reply.bind Reply.consumer? = some id ∧ reply'.bind Reply.consumer? = some id' →
      ∃ c c', b.consumer? id = some c ∧ b'.consumer? id' = some c' ∧ c.Alike c')
    (messages : ∀ tags, Grows Reply.tag? reply reply' (SameTag s p p') tags → ∀ queue,
      Mirrors (SameTag s p p') (SameConsumer s p p') queue p.bus.broker
        p'.bus.broker →
      Mirrors tags (SameConsumer s p p') queue b.broker b'.broker) :
    Agree n s (p.answer b s reply) (p'.answer b' s reply') := by
  have hlength := h.replies.length_eq
  have hgrows : ∀ f, Grows f reply reply' (Same f s p p')
      (Same f s (p.answer b s reply) (p'.answer b' s reply')) := fun f =>
    ⟨fun x x' hx => (same_answer hlength b b' reply reply').mpr (.inl hx),
      fun x x' hx hx' => (same_answer hlength b b' reply reply').mpr (.inr ⟨hx, hx'⟩)⟩
  refine ⟨?_, fun id id' hid => ?_, ?_, ?_⟩
  · rw [replies_answer, replies_answer]
    refine rel_append (h.replies.imp fun r r' hr => hr.mono (hgrows _).old (hgrows _).old) ?_
    exact .cons (alike _ _ (hgrows _) (hgrows _)) .nil
  · exact consumers id id' ((same_answer hlength b b' reply reply').mp hid)
  · exact (messages _ (hgrows _) _ h.work).mono (fun _ _ hx => hx) (hgrows _).old
  · exact (messages _ (hgrows _) _ h.dead).mono (fun _ _ hx => hx) (hgrows _).old

theorem answer_unnamed (h : Agree n s p p') {b b' : Bus} {reply reply' : Option Reply}
    (alike : Reply.Alike (SameTag s p p') (SameConsumer s p p') reply reply')
    (unnamed : reply.bind Reply.consumer? = none)
    (consumers : ConsumersAlike (SameConsumer s p p') b b')
    (messages : ∀ queue,
      Mirrors (SameTag s p p') (SameConsumer s p p') queue p.bus.broker p'.bus.broker →
      Mirrors (SameTag s p p') (SameConsumer s p p') queue b.broker b'.broker) :
    Agree n s (p.answer b s reply) (p'.answer b' s reply') := by
  refine h.answer (fun tags consumers htags hconsumers => alike.mono htags.old hconsumers.old)
    (fun id id' hid => ?_) fun tags htags queue hm => ?_
  · rcases hid with hold | ⟨hnew, -⟩
    · exact consumers id id' hold
    · rw [unnamed] at hnew
      cases hnew
  · exact (messages queue hm).mono htags.old fun _ _ hx => hx

theorem reply?_alike (h : Agree n s p p') (k : Nat) :
    Reply.Alike (SameTag s p p') (SameConsumer s p p') (p.reply? s k)
      (p'.reply? s k) := by
  have hat : ∀ {l l' : List (Option Reply)} (k : Nat),
      Forall₂ (Reply.Alike (SameTag s p p') (SameConsumer s p p')) l l' →
      Reply.Alike (SameTag s p p') (SameConsumer s p p') l[k]?.join l'[k]?.join := by
    intro l l' k hl
    induction hl generalizing k with
    | nil => exact .nothing
    | cons hr _ ih =>
      cases k with
      | zero => exact hr
      | succ k => exact ih k
  exact hat k h.replies

theorem consumer?_cases (h : Agree n s p p') (k : Nat) :
    (p.consumer? s k = none ∧ p'.consumer? s k = none) ∨
    ∃ id id', p.consumer? s k = some id ∧ p'.consumer? s k = some id' ∧
      SameConsumer s p p' id id' := by
  have halike := h.reply?_alike k
  unfold consumer?
  generalize p.reply? s k = reply at halike
  generalize p'.reply? s k = reply' at halike
  cases halike with
  | opened same => exact .inr ⟨_, _, rfl, rfl, same⟩
  | nothing | done | confirmed | polled | unknown => exact .inl ⟨rfl, rfl⟩

theorem delivery?_cases (h : Agree n s p p') (k : Nat) :
    (p.delivery? s k = none ∧ p'.delivery? s k = none) ∨
    ∃ d d', p.delivery? s k = some d ∧ p'.delivery? s k = some d' ∧
      SameTag s p p' d.tag d'.tag := by
  have halike := h.reply?_alike k
  unfold delivery?
  generalize p.reply? s k = reply at halike
  generalize p'.reply? s k = reply' at halike
  cases halike with
  | polled same =>
    cases same with
    | delivered same => exact .inr ⟨_, _, rfl, rfl, same⟩
    | ended | pending => exact .inl ⟨rfl, rfl⟩
  | nothing | done | confirmed | opened | unknown => exact .inl ⟨rfl, rfl⟩

theorem nothing (h : Agree n s p p') :
    Agree n s (p.answer p.bus s none) (p'.answer p'.bus s none) :=
  h.answer_unnamed .nothing rfl h.consumers fun _ hm => hm

theorem of_consumer (h : Agree n s p p') (hp : p.Orderly n) {r : Request} {k : Nat} {f : Nat → Op}
    (hop : ∀ p : Paths, p.op? n s r = (p.consumer? s k).map f)
    (step : ∀ c c', p.bus.consumer? c.id = some c → p'.bus.consumer? c'.id = some c' →
      c.queue = n.workQueue s → c.Alike c' → SameConsumer s p p' c.id c'.id →
      Agree n s (p.answer (p.bus.perform (f c.id)).1 s (some (p.bus.perform (f c.id)).2))
        (p'.answer (p'.bus.perform (f c'.id)).1 s (some (p'.bus.perform (f c'.id)).2))) :
    Agree n s (p.perform n s r) (p'.perform n s r) := by
  rcases h.consumer?_cases k with ⟨hnone, hnone'⟩ | ⟨id, id', hid, hid', hsame⟩
  · rw [perform_of_none ((hop p).trans (by rw [hnone, Option.map_none])),
      perform_of_none ((hop p').trans (by rw [hnone', Option.map_none]))]
    exact h.nothing
  · obtain ⟨c, c', hc, hc', halike⟩ := h.consumers id id' hsame
    obtain rfl := id_of_consumer? hc
    obtain rfl := id_of_consumer? hc'
    have hqueue := hp.seated s k c.id hid
    rw [queueOf?, hc, Option.map_some, Option.some.injEq] at hqueue
    rw [perform_of_some ((hop p).trans (by rw [hid, Option.map_some])),
      perform_of_some ((hop p').trans (by rw [hid', Option.map_some]))]
    exact step c c' hc hc' hqueue halike hsame

theorem of_delivery (h : Agree n s p p') (hp : p.Orderly n) (hp' : p'.Orderly n) {r : Request}
    {k : Nat} {f : String → Nat → Op}
    (hop : ∀ p : Paths, p.op? n s r = (p.delivery? s k).map fun d => f d.queue d.tag)
    (step : ∀ t t', SameTag s p p' t t' →
      Agree n s (p.answer (p.bus.perform (f (n.workQueue s) t)).1 s
          (some (p.bus.perform (f (n.workQueue s) t)).2))
        (p'.answer (p'.bus.perform (f (n.workQueue s) t')).1 s
          (some (p'.bus.perform (f (n.workQueue s) t')).2))) :
    Agree n s (p.perform n s r) (p'.perform n s r) := by
  rcases h.delivery?_cases k with ⟨hnone, hnone'⟩ | ⟨d, d', hd, hd', hsame⟩
  · rw [perform_of_none ((hop p).trans (by rw [hnone, Option.map_none])),
      perform_of_none ((hop p').trans (by rw [hnone', Option.map_none]))]
    exact h.nothing
  · rw [perform_of_some ((hop p).trans (by rw [hd, Option.map_some, hp.queued s k d hd])),
      perform_of_some ((hop p').trans (by rw [hd', Option.map_some, hp'.queued s k d' hd']))]
    exact step d.tag d'.tag hsame

theorem settle (h : Agree n s p p') {α : Type} {result result' : Except BusError α} {b b' : Broker}
    (settled : SettledAlike (SameTag s p p') result result')
    (messages : ∀ k, Mirrors (SameTag s p p') (SameConsumer s p p') k p.bus.broker
      p'.bus.broker → Mirrors (SameTag s p p') (SameConsumer s p p') k b b') :
    Agree n s (p.answer { p.bus with broker := b } s (some (.ofResult result)))
      (p'.answer { p'.bus with broker := b' } s (some (.ofResult result'))) := by
  refine h.answer_unnamed (Reply.alike_ofResult settled) ?_ h.consumers messages
  cases result <;> rfl

section Requests

variable (hn : n.Parted) (hp : p.Orderly n) (hp' : p'.Orderly n) (h : Agree n s p p')

include hp hp' h

theorem send (o : Outbound) : Agree n s (p.perform n s (.send o)) (p'.perform n s (.send o)) := by
  have hop : p.op? n s (.send o) = some (.send o) := rfl
  have hop' : p'.op? n s (.send o) = some (.send o) := rfl
  have hgraph := hp.graph.symm.trans hp'.graph
  obtain ⟨c, hok, hok'⟩ := hgraph.send_snd hp.reachable hp'.reachable o
  have hreply : (p.bus.perform (.send o)).2 = .confirmed c := by
    simp only [Bus.perform, hok]
  have hreply' : (p'.bus.perform (.send o)).2 = .confirmed c := by
    simp only [Bus.perform, hok']
  rw [perform_of_some hop, perform_of_some hop', hreply, hreply']
  exact h.answer_unnamed (.confirmed c) rfl h.consumers fun queue hm =>
    hm.send hgraph hp.reachable hp'.reachable o

theorem cancel (k : Nat) : Agree n s (p.perform n s (.cancel k)) (p'.perform n s (.cancel k)) := by
  refine h.of_consumer hp (fun _ => rfl) fun c c' hc hc' _ halike hsame => ?_
  have hunique := biUnique_same_of_path hp.consumers hp'.consumers s
  -- nothing is taken from either consumer, only their streams are over
  have hcancelled : (Broker.cancel c).Alike (Broker.cancel c') :=
    ⟨halike.queue, halike.prefetch, rfl⟩
  simp only [Bus.perform, hc, hc']
  have hid : SameConsumer s p p' (Broker.cancel c).id (Broker.cancel c').id := hsame
  exact h.answer_unnamed .done rfl
    (h.consumers.setConsumer hunique p.bus.broker p'.bus.broker hid hcancelled) fun _ hm => hm

theorem close (k : Nat) : Agree n s (p.perform n s (.close k)) (p'.perform n s (.close k)) := by
  refine h.of_consumer hp (fun _ => rfl) fun c c' hc hc' hqueue halike hsame => ?_
  have hunique := biUnique_same_of_path hp.consumers hp'.consumers s
  have hwork := h.work
  rw [← hqueue] at hwork
  obtain ⟨hid, hkept⟩ := p.bus.broker.close_consumer c
  obtain ⟨hid', hkept'⟩ := p'.bus.broker.close_consumer c'
  have hclosed : (p.bus.broker.close c).2.1.Alike (p'.bus.broker.close c').2.1 := by
    refine ⟨?_, ?_, ?_⟩
    · rw [hkept, hkept', halike.queue]
    · rw [close_prefetch, close_prefetch, halike.prefetch]
    · rw [close_cancelled, close_cancelled]
  simp only [Bus.perform, hc, hc']
  refine h.answer_unnamed .done rfl (h.consumers.setConsumer hunique _ _ ?_ hclosed)
    fun queue hm => hwork.close hunique hsame halike.queue hm
  rw [hid, hid']
  exact hsame

include hn

theorem consume (prefetch : Nat) :
    Agree n s (p.perform n s (.consume prefetch)) (p'.perform n s (.consume prefetch)) := by
  have hperform : ∀ {p : Paths}, p.Orderly n →
      p.bus.perform (.consume (n.workQueue s) prefetch) =
        (⟨{ p.bus.broker with lastConsumer := p.bus.broker.lastConsumer + 1 }, p.bus.consumers ++
          [⟨p.bus.broker.lastConsumer + 1, n.workQueue s, prefetch, false⟩]⟩,
          .opened (p.bus.broker.lastConsumer + 1)) := by
    intro p hp
    have hknown := (hp.realizes hn).isSome_workQueue s
    have hconsume : p.bus.broker.consume (n.workQueue s) prefetch =
        ({ p.bus.broker with lastConsumer := p.bus.broker.lastConsumer + 1 },
          .ok ⟨p.bus.broker.lastConsumer + 1, n.workQueue s, prefetch, false⟩) := by
      rw [Broker.consume, whenReachable, if_pos hp.reachable, if_neg]
      simpa using Option.isSome_iff_ne_none.mp hknown
    simp only [Bus.perform, hconsume]
  have hop : p.op? n s (.consume prefetch) = some (.consume (n.workQueue s) prefetch) := rfl
  have hop' : p'.op? n s (.consume prefetch) = some (.consume (n.workQueue s) prefetch) := rfl
  rw [perform_of_some hop, perform_of_some hop', hperform hp, hperform hp']
  refine h.answer (fun _ _ _ hconsumers => .opened (hconsumers.new _ _ rfl rfl))
    (fun id id' hid => ?_) fun tags htags queue hm => ?_
  · have hnew := hp.registered.consumer?_new
    have hnew' := hp'.registered.consumer?_new
    have hfresh : Consumer.Alike ⟨p.bus.broker.lastConsumer + 1, n.workQueue s, prefetch, false⟩
        ⟨p'.bus.broker.lastConsumer + 1, n.workQueue s, prefetch, false⟩ := ⟨rfl, rfl, rfl⟩
    refine h.consumers.append _ _ hnew hnew' hfresh ?_
    rcases hid with hold | ⟨hid, hid'⟩
    · exact .inl hold
    · exact .inr ⟨Option.some.inj hid, Option.some.inj hid'⟩
  · exact (hm.mono htags.old fun _ _ hx => hx).congr rfl rfl rfl rfl

theorem recv (k : Nat) : Agree n s (p.perform n s (.recv k)) (p'.perform n s (.recv k)) := by
  refine h.of_consumer hp (fun _ => rfl) fun c c' hc hc' hqueue halike hsame => ?_
  have hunique := biUnique_same_of_path hp.consumers hp'.consumers s
  have hknown := (hp.realizes hn).isSome_workQueue s
  have hknown' := (hp'.realizes hn).isSome_workQueue s
  have hwork := h.work
  rw [← hqueue] at hknown hknown' hwork
  have hpoll := fun tags
      (htags : Grows Reply.tag? (some (.polled (p.bus.broker.poll c).2.2))
        (some (.polled (p'.bus.broker.poll c').2.2)) (SameTag s p p') tags) =>
    Mirrors.poll hunique hknown hknown' hp.reachable hp'.reachable hsame halike.queue
      halike.prefetch halike.cancelled hwork htags.old fun d d' hd hd' =>
        htags.new _ _ (by rw [hd]; rfl) (by rw [hd']; rfl)
  simp only [Bus.perform, hc, hc']
  refine h.answer (fun tags _ htags _ => .polled (hpoll tags htags).1) (fun x x' hx => ?_)
    fun tags htags queue hm => (hpoll tags htags).2 queue hm
  rw [poll_self hp.reachable, poll_self hp'.reachable]
  rcases hx with hold | ⟨hnew, -⟩
  · exact h.consumers.setConsumer hunique _ _ hsame halike x x' hold
  · cases hnew

theorem ack (k : Nat) : Agree n s (p.perform n s (.ack k)) (p'.perform n s (.ack k)) := by
  refine h.of_delivery hp hp' (fun _ => rfl) fun t t' hsame => ?_
  have hunique := biUnique_same_of_path hp.tags hp'.tags s
  obtain ⟨hsettled, hmessages⟩ := h.work.ack hunique ((hp.realizes hn).isSome_workQueue s)
    ((hp'.realizes hn).isSome_workQueue s) hsame
  exact h.settle hsettled hmessages

theorem reject (k : Nat) (back : Bool) :
    Agree n s (p.perform n s (.reject k back)) (p'.perform n s (.reject k back)) := by
  refine h.of_delivery hp hp' (f := fun queue tag => .reject queue tag back) (fun _ => rfl)
    fun t t' hsame => ?_
  have hgraph := hp.graph.symm.trans hp'.graph
  have hunique := biUnique_same_of_path hp.tags hp'.tags s
  obtain ⟨hsettled, hmessages⟩ := h.work.reject hgraph hunique
    ((hp.realizes hn).isSome_workQueue s) ((hp'.realizes hn).isSome_workQueue s) hsame back
  exact h.settle hsettled hmessages

theorem perform (r : Request) : Agree n s (p.perform n s r) (p'.perform n s r) := by
  cases r with
  | send o => exact h.send hp hp' o
  | consume prefetch => exact h.consume hn hp hp' prefetch
  | recv k => exact h.recv hn hp hp' k
  | cancel k => exact h.cancel hp hp' k
  | close k => exact h.close hp hp' k
  | ack k => exact h.ack hn hp hp' k
  | reject k back => exact h.reject hn hp hp' k back

end Requests

end Agree

structure Leaves (n : TopologyNames) (s : PaymentStatus) (p p₁ : Paths) : Prop where
  replies : p₁.replies s = p.replies s
  consumers : ∀ id, p.bus.queueOf? id = some (n.workQueue s) →
    p₁.bus.consumer? id = p.bus.consumer? id
  messages : ∀ queue, queue = n.workQueue s ∨ queue = n.deadLetterQueue s →
    p₁.bus.broker.readyMessages queue = p.bus.broker.readyMessages queue ∧
      p₁.bus.broker.heldMessages queue = p.bus.broker.heldMessages queue

section Interleaved

variable {n : TopologyNames} {s s' : PaymentStatus} {p p' p₁ p₁' : Paths}

theorem Leaves.refl (n : TopologyNames) (s : PaymentStatus) (p : Paths) : Leaves n s p p :=
  ⟨rfl, fun _ _ => rfl, fun _ _ => ⟨rfl, rfl⟩⟩

theorem leaves_perform (hn : n.Parted) (hp : p.Orderly n) (hs : s' ≠ s) {r : Request}
    (hr : r.Concerns n s') : Leaves n s p (p.perform n s' r) := by
  cases hop : p.op? n s' r with
  | none =>
    rw [perform_of_none hop]
    exact ⟨replies_answer_of_ne p _ _ hs.symm, fun _ _ => rfl, fun _ _ => ⟨rfl, rfl⟩⟩
  | some op =>
    have hpath := hp.onPath hr hop
    have hqueues := mt (TopologyNames.workQueue_inj hn.sound).mp hs
    rw [perform_of_some hop]
    exact ⟨replies_answer_of_ne p _ _ hs.symm,
      fun id hid => consumer?_perform hp.registered hqueues hpath hid,
      fun queue hqueue => messages_of_other hn (hp.realizes hn) hs.symm hpath hqueue⟩

theorem Agree.congr (h : Agree n s p p') (hp : p.Orderly n) (hp' : p'.Orderly n)
    (left : Leaves n s p p₁) (right : Leaves n s p' p₁') : Agree n s p₁ p₁' := by
  have htags : SameTag s p₁ p₁' = SameTag s p p' := same_congr left.replies right.replies
  have hconsumers : SameConsumer s p₁ p₁' = SameConsumer s p p' :=
    same_congr left.replies right.replies
  refine ⟨?_, ?_, ?_, ?_⟩
  · rw [htags, hconsumers, left.replies, right.replies]
    exact h.replies
  · rw [hconsumers]
    intro id id' hsame
    obtain ⟨k, hk, hk'⟩ := hsame
    rw [left.consumers id (hp.seated s k id hk), right.consumers id' (hp'.seated s k id' hk')]
    exact h.consumers id id' ⟨k, hk, hk'⟩
  · obtain ⟨hready, hheld⟩ := left.messages _ (.inl rfl)
    obtain ⟨hready', hheld'⟩ := right.messages _ (.inl rfl)
    rw [htags, hconsumers]
    exact h.work.congr hready hheld hready' hheld'
  · obtain ⟨hready, hheld⟩ := left.messages _ (.inr rfl)
    obtain ⟨hready', hheld'⟩ := right.messages _ (.inr rfl)
    rw [htags, hconsumers]
    exact h.dead.congr hready hheld hready' hheld'

variable {asked asked' : List (PaymentStatus × Request)}

theorem Agree.steps_of_others (hn : n.Parted) (hp : p.Orderly n) (hp' : p'.Orderly n)
    (h : Agree n s p p') (hasked : ∀ x ∈ asked, x.2.Concerns n x.1)
    (others : ∀ x ∈ asked, x.1 ≠ s) : Agree n s p (p'.steps n asked) := by
  induction asked generalizing p' with
  | nil => exact h
  | cons x asked ih =>
    obtain ⟨hx, hrest⟩ := List.forall_mem_cons.mp hasked
    obtain ⟨hs, hothers⟩ := List.forall_mem_cons.mp others
    have hleaves := leaves_perform hn hp' hs hx
    exact ih (hp'.perform hx) (h.congr hp hp' (.refl n s p) hleaves) hrest hothers

theorem others_of_requestsFor_nil (h : requestsFor s asked = []) : ∀ x ∈ asked, x.1 ≠ s := by
  intro x hx
  have hnone := filter_eq_nil_iff.mp (map_eq_nil_iff.mp h) x hx
  simpa using hnone

theorem split_of_requestsFor {r : Request} {rest : List Request}
    (h : requestsFor s asked = r :: rest) : ∃ before after, asked = before ++ (s, r) :: after ∧
      (∀ x ∈ before, x.1 ≠ s) ∧ requestsFor s after = rest := by
  obtain ⟨x, xs, hfilter, rfl, rfl⟩ := map_eq_cons_iff.mp h
  obtain ⟨before, after, rfl, hbefore, hx, hafter⟩ := filter_eq_cons_iff.mp hfilter
  obtain rfl : x.1 = s := by simpa using hx
  exact ⟨before, after, rfl, fun y hy => by simpa using hbefore y hy, by rw [requestsFor, hafter]⟩

theorem Agree.steps (hn : n.Parted) (hp : p.Orderly n) (hp' : p'.Orderly n) (h : Agree n s p p')
    (hasked : ∀ x ∈ asked, x.2.Concerns n x.1) (hasked' : ∀ x ∈ asked', x.2.Concerns n x.1)
    (same : requestsFor s asked = requestsFor s asked') :
    Agree n s (p.steps n asked) (p'.steps n asked') := by
  induction asked generalizing p p' asked' with
  | nil => exact h.steps_of_others hn hp hp' hasked' (others_of_requestsFor_nil same.symm)
  | cons x asked ih =>
    obtain ⟨hx, hrest⟩ := List.forall_mem_cons.mp hasked
    by_cases hs : x.1 = s
    · obtain ⟨status, r⟩ := x
      obtain rfl : status = s := hs
      have hnext : requestsFor status asked' = r :: requestsFor status asked := by
        rw [← same, requestsFor, filter_cons_of_pos (by simp), map_cons, requestsFor]
      obtain ⟨before, after, rfl, hothers, hafter⟩ := split_of_requestsFor hnext
      obtain ⟨hbefore, hlater⟩ := forall_mem_append.mp hasked'
      obtain ⟨-, hlater⟩ := List.forall_mem_cons.mp hlater
      -- the other run comes to the same request first
      have hcaught := h.steps_of_others hn hp hp' hbefore hothers
      have hp₁ := hp'.steps hbefore
      have hdone := hcaught.perform hn hp hp₁ r
      have hlast := ih (hp.perform hx) (hp₁.perform hx) hdone hrest hlater hafter.symm
      rw [Paths.steps, Paths.steps, foldl_append, foldl_cons, foldl_cons]
      exact hlast
    · have hleaves := leaves_perform hn hp hs hx
      have hsame : requestsFor s asked = requestsFor s asked' := by
        rw [← same, requestsFor, requestsFor, filter_cons_of_neg (by simpa using hs)]
      exact ih (hp.perform hx) hp' (h.congr hp hp' hleaves (.refl n s p')) hrest hasked' hsame

theorem Agree.start (n : TopologyNames) (s : PaymentStatus) : Agree n s (start n) (start n) := by
  have hquiet := quiet_declare {} n.topology
  have hheld : ∀ queue, (Paths.start n).bus.broker.heldMessages queue = [] := fun queue =>
    hquiet.messages.held queue
  refine ⟨.nil, ?_, ⟨rfl, ?_⟩, ⟨rfl, ?_⟩⟩
  · rintro id id' ⟨k, hk, -⟩
    cases hk
  · rw [hheld]
    exact .nil
  · rw [hheld]
    exact .nil

theorem requestsFor_concern {wanted : PaymentStatus → List Request}
    (concern : ∀ s, ∀ r ∈ wanted s, r.Concerns n s) (h : ∀ s, requestsFor s asked = wanted s) :
    ∀ x ∈ asked, x.2.Concerns n x.1 := by
  intro x hx
  refine concern x.1 x.2 ?_
  rw [← h x.1]
  exact mem_map_of_mem (mem_filter.mpr ⟨hx, beq_self_eq_true _⟩)

/-- However the requests for the two paths come between each other, they get the same replies and
leave the same messages in the work queues and the dead-letter queues, up to the numbers of
consumers and deliveries. -/
theorem alike_of_interleavings (hn : n.Parted) {wanted : PaymentStatus → List Request}
    (concern : ∀ s, ∀ r ∈ wanted s, r.Concerns n s) (h : ∀ s, requestsFor s asked = wanted s)
    (h' : ∀ s, requestsFor s asked' = wanted s) :
    ∃ tags consumers : Nat → Nat → Prop, BiUnique tags ∧ BiUnique consumers ∧ ∀ s,
      Forall₂ (Reply.Alike tags consumers) ((run n asked).replies s) ((run n asked').replies s) ∧
      Mirrors tags consumers (n.workQueue s) (run n asked).bus.broker (run n asked').bus.broker ∧
      Mirrors tags consumers (n.deadLetterQueue s) (run n asked).bus.broker
        (run n asked').bus.broker := by
  have hasked := requestsFor_concern concern h
  have hasked' := requestsFor_concern concern h'
  have hp : (run n asked).Orderly n := (Orderly.start n).steps hasked
  have hp' : (run n asked').Orderly n := (Orderly.start n).steps hasked'
  refine ⟨_, _, biUnique_same hp.tags hp'.tags, biUnique_same hp.consumers hp'.consumers,
    fun s => ?_⟩
  have hagree : Agree n s (run n asked) (run n asked') := (Agree.start n s).steps hn (.start n)
    (.start n) hasked hasked' ((h s).trans (h' s).symm)
  refine ⟨hagree.replies.imp fun r r' hr => hr.mono ?_ ?_, hagree.work.mono ?_ ?_,
    hagree.dead.mono ?_ ?_⟩
  all_goals exact fun x x' hx => ⟨s, hx⟩

end Interleaved

/-- Of two messages one dies, and the other comes back when its consumer is closed and is no longer
to be acknowledged. In between the consumer is full. -/
def busyPath (s : PaymentStatus) : List Request :=
  let target := ({} : TopologyNames).routes.target s
  [.send ⟨target.exchange, target.routingKey, [], "m-1", "application/json", true⟩,
    .send ⟨target.exchange, target.routingKey, [], "m-2", "application/json", true⟩,
    .consume 1, .recv 2, .recv 2, .reject 3 false, .recv 2, .close 2, .ack 6]

def oneAfterTheOther : List (PaymentStatus × Request) :=
  (busyPath .success).map (.success, ·) ++ (busyPath .failed).map (.failed, ·)

def inTurns : List (PaymentStatus × Request) :=
  ((busyPath .failed).zip (busyPath .success)).flatMap fun r => [(.failed, r.1), (.success, r.2)]

theorem alike_of_inTurns :
    (∀ s, requestsFor s oneAfterTheOther = busyPath s) ∧ (∀ s, requestsFor s inTurns = busyPath s) ∧
    ∃ tags consumers : Nat → Nat → Prop, BiUnique tags ∧ BiUnique consumers ∧ ∀ s,
      Forall₂ (Reply.Alike tags consumers) ((run {} oneAfterTheOther).replies s)
        ((run {} inTurns).replies s) ∧
      Mirrors tags consumers (({} : TopologyNames).workQueue s) (run {} oneAfterTheOther).bus.broker
        (run {} inTurns).bus.broker ∧
      Mirrors tags consumers (({} : TopologyNames).deadLetterQueue s)
        (run {} oneAfterTheOther).bus.broker (run {} inTurns).bus.broker := by
  have hn : ({} : TopologyNames).Parted := by
    refine ⟨by decide +kernel, by decide, fun s => ?_, by decide⟩
    cases s <;> decide
  have hconcern : ∀ s, ∀ r ∈ busyPath s, r.Concerns {} s := by
    intro s r hr
    cases r with
    | send o =>
      refine hn.concerns_of_route ?_ ?_
      all_goals
        simp [busyPath] at hr
        rcases hr with rfl | rfl
        all_goals cases s <;> rfl
    | consume | recv | cancel | close | ack | reject => trivial
  have h : ∀ s, requestsFor s oneAfterTheOther = busyPath s := by
    intro s
    cases s <;> rfl
  have h' : ∀ s, requestsFor s inTurns = busyPath s := by
    intro s
    cases s <;> rfl
  exact ⟨h, h', alike_of_interleavings hn hconcern h h'⟩

def Keyed (n : TopologyNames) (s : PaymentStatus) : Request → Prop
  | .send o => o.routingKey = (n.routes.target s).routingKey
  | _ => True

/-- A success has the key under which failures die. -/
def crossedNames : TopologyNames :=
  { failedDlqRoutingKey := ({} : TopologyNames).successRoutingKey }

/-- One message is sent as dead with the key of a success, and one dies as a failure. -/
def crossedPath : PaymentStatus → List Request
  | .success => [.send ⟨crossedNames.dlxExchange, crossedNames.successRoutingKey, [], "m-1",
      "application/json", true⟩]
  | .failed => [.send ⟨crossedNames.exchange, crossedNames.failedRoutingKey, [], "m-2",
      "application/json", true⟩, .consume 1, .recv 1, .reject 2 false]

def crossed (s s' : PaymentStatus) : List (PaymentStatus × Request) :=
  (crossedPath s).map (s, ·) ++ (crossedPath s').map (s', ·)

/-- The key alone does not make a message one of the outcome's path: sent to the exchange for dead
messages it comes to the other path's, and then it counts which request was first. -/
theorem not_alike_of_crossedPath : ¬ ∀ (n : TopologyNames) (wanted : PaymentStatus → List Request)
    (asked asked' : List (PaymentStatus × Request)), n.Parted →
    (∀ s, ∀ r ∈ wanted s, Keyed n s r) → (∀ s, requestsFor s asked = wanted s) →
    (∀ s, requestsFor s asked' = wanted s) →
    ∃ tags consumers : Nat → Nat → Prop, BiUnique tags ∧ BiUnique consumers ∧ ∀ s,
      Forall₂ (Reply.Alike tags consumers) ((run n asked).replies s) ((run n asked').replies s) ∧
      Mirrors tags consumers (n.workQueue s) (run n asked).bus.broker (run n asked').bus.broker ∧
      Mirrors tags consumers (n.deadLetterQueue s) (run n asked).bus.broker
        (run n asked').bus.broker := by
  intro halike
  have hn : crossedNames.Parted := by
    refine ⟨by decide +kernel, by decide, fun s => ?_, by decide⟩
    cases s <;> decide
  have hkeyed : ∀ s, ∀ r ∈ crossedPath s, Keyed crossedNames s r := by
    intro s r hr
    cases s <;> simp only [crossedPath, List.mem_cons, List.not_mem_nil, or_false] at hr
    · subst hr
      rfl
    · rcases hr with rfl | rfl | rfl | rfl
      · rfl
      all_goals trivial
  obtain ⟨tags, consumers, -, -, hsame⟩ := halike crossedNames crossedPath
    (crossed .success .failed) (crossed .failed .success) hn hkeyed (fun s => by cases s <;> rfl)
    (fun s => by cases s <;> rfl)
  have hready := (hsame .failed).2.2.ready
  exact absurd hready (by decide +kernel)

end Paths
end Bus
end OutcomeRelay
