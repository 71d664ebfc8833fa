import Mathlib.Data.List.Forall2
import OutcomeRelay.Proofs.QueueEpochs
import OutcomeRelay.Proofs.SendVerdict

/-!
Queues that mirror each other in two brokers. The same messages wait in them, and the same are held,
though the tags and the consumers have other numbers. What is done to both queues under numbers that
stand for each other leaves them so.
-/

namespace OutcomeRelay

def StoredMessage.plain (m : StoredMessage) : StoredMessage :=
  { m with copy := 0 }

structure HeldMessage.Alike (tags consumers : Nat → Nat → Prop) (h h' : HeldMessage) : Prop where
  tag : tags h.tag h'.tag
  consumer : consumers h.consumer h'.consumer
  message : h.message.plain = h'.message.plain

namespace Broker

open List Relator

structure Mirrors (tags consumers : Nat → Nat → Prop) (n : String) (b b' : Broker) : Prop where
  ready : (b.readyMessages n).map StoredMessage.plain = (b'.readyMessages n).map StoredMessage.plain
  held : Forall₂ (HeldMessage.Alike tags consumers) (b.heldMessages n) (b'.heldMessages n)

inductive PolledAlike (tags : Nat → Nat → Prop) : Polled → Polled → Prop where
  | ended : PolledAlike tags .ended .ended
  | pending (epoch epoch' : Nat) : PolledAlike tags (.pending epoch) (.pending epoch')
  | delivered {d : Delivery} {tag : Nat} (same : tags d.tag tag) :
      PolledAlike tags (.delivered d) (.delivered { d with tag := tag })

def unknownTag (tag : Nat) : BusError :=
  .ack s!"PRECONDITION_FAILED - unknown delivery tag {tag}"

inductive SettledAlike (tags : Nat → Nat → Prop) {α : Type} :
    Except BusError α → Except BusError α → Prop where
  | done (a a' : α) : SettledAlike tags (.ok a) (.ok a')
  | unknown {t t' : Nat} (same : tags t t') :
      SettledAlike tags (.error (unknownTag t)) (.error (unknownTag t'))

section Plain

variable {m m' : StoredMessage} (h : m.plain = m'.plain)

include h

theorem plain_redelivered :
    ({ m with redelivered := true } : StoredMessage).plain =
      ({ m' with redelivered := true } : StoredMessage).plain :=
  congrArg (fun x : StoredMessage => { x with redelivered := true }) h

theorem plain_deadAt (t : DeadLetterTarget) : (deadAt m t).plain = (deadAt m' t).plain :=
  congrArg (fun x : StoredMessage => deadAt x t) h

theorem delivery_of_plain (queue : String) (tag tag' : Nat) :
    delivery queue tag' m' = { delivery queue tag m with tag := tag' } := by
  -- a delivery does not tell the number of the copy
  change delivery queue tag' m'.plain = { delivery queue tag m.plain with tag := tag' }
  rw [h]
  rfl

end Plain

section Held

variable {tags consumers tags' consumers' : Nat → Nat → Prop} {held held' : List HeldMessage}

theorem forall₂_mono (hheld : Forall₂ (HeldMessage.Alike tags consumers) held held')
    (htags : ∀ x x', tags x x' → tags' x x')
    (hconsumers : ∀ x x', consumers x x' → consumers' x x') :
    Forall₂ (HeldMessage.Alike tags' consumers') held held' :=
  hheld.imp fun _ _ h => ⟨htags _ _ h.tag, hconsumers _ _ h.consumer, h.message⟩

theorem forall₂_filter_consumer (hheld : Forall₂ (HeldMessage.Alike tags consumers) held held')
    (hunique : BiUnique consumers) {id id' : Nat} (hid : consumers id id') :
    Forall₂ (HeldMessage.Alike tags consumers) (held.filter fun h => h.consumer == id)
      (held'.filter fun h => h.consumer == id') := by
  refine rel_filter (fun h h' halike => ?_) hheld
  simpa using rel_eq hunique halike.consumer hid

theorem forall₂_filter_others (hheld : Forall₂ (HeldMessage.Alike tags consumers) held held')
    (hunique : BiUnique consumers) {id id' : Nat} (hid : consumers id id') :
    Forall₂ (HeldMessage.Alike tags consumers) (held.filter fun h => h.consumer != id)
      (held'.filter fun h => h.consumer != id') := by
  refine rel_filter (fun h h' halike => ?_) hheld
  simpa using not_congr (rel_eq hunique halike.consumer hid)

theorem forall₂_filter_tag (hheld : Forall₂ (HeldMessage.Alike tags consumers) held held')
    (hunique : BiUnique tags) {t t' : Nat} (ht : tags t t') :
    Forall₂ (HeldMessage.Alike tags consumers) (held.filter fun h => h.tag != t)
      (held'.filter fun h => h.tag != t') := by
  refine rel_filter (fun h h' halike => ?_) hheld
  simpa using not_congr (rel_eq hunique halike.tag ht)

theorem find?_tag_alike (hheld : Forall₂ (HeldMessage.Alike tags consumers) held held')
    (hunique : BiUnique tags) {t t' : Nat} (ht : tags t t') :
    Option.Rel (HeldMessage.Alike tags consumers) (held.find? fun h => h.tag == t)
      (held'.find? fun h => h.tag == t') := by
  induction hheld with
  | nil => exact .none
  | @cons h h' held held' halike _ ih =>
    have hsame : h.tag = t ↔ h'.tag = t' := rel_eq hunique halike.tag ht
    by_cases htag : h.tag = t
    · rw [find?_cons_of_pos (by simpa using htag), find?_cons_of_pos (by simpa using hsame.mp htag)]
      exact .some halike
    · rw [find?_cons_of_neg (by simpa using htag),
        find?_cons_of_neg (by simpa using mt hsame.mpr htag)]
      exact ih

theorem map_comeBack_plain (hheld : Forall₂ (HeldMessage.Alike tags consumers) held held') :
    (held.map comeBack).map StoredMessage.plain = (held'.map comeBack).map StoredMessage.plain := by
  induction hheld with
  | nil => rfl
  | cons halike _ ih =>
    rw [map_cons, map_cons, map_cons, map_cons, ih, comeBack, comeBack,
      plain_redelivered halike.message]

end Held

theorem SameGraph.route_snd {b b' : Broker} (h : SameGraph b b') (m : StoredMessage) :
    (b'.route m).2 = (b.route m).2 := by
  have htold : ∀ b : Broker, (b.route m).2 =
      (b.targets m.exchange m.routingKey).map fun queues =>
        queues.filter fun q => (b.queue? q).isSome := by
    intro b
    unfold route
    cases b.targets m.exchange m.routingKey <;> rfl
  have htargets : b'.targets m.exchange m.routingKey = b.targets m.exchange m.routingKey := by
    simp only [targets, exchange?, h.exchanges, h.bindings]
  simp only [htold, htargets, h.isSome_queue?]

theorem SameGraph.send_snd {b b' : Broker} (h : SameGraph b b') (reachable : b.reachable = true)
    (reachable' : b'.reachable = true) (o : Outbound) :
    ∃ c, (b.send o).2 = .ok c ∧ (b'.send o).2 = .ok c := by
  have hcounted : SameGraph b.counted b'.counted := ⟨h.exchanges, h.bindings, h.specs⟩
  have hroute := hcounted.route_snd (fresh o)
  rw [send_of_routed reachable, send_of_routed reachable']
  generalize b.counted.route (fresh o) = routed at hroute
  generalize b'.counted.route (fresh o) = routed' at hroute
  obtain ⟨b₁, told⟩ := routed
  obtain ⟨b₁', told'⟩ := routed'
  obtain rfl : told' = told := hroute
  rcases told' with _ | _ | ⟨q, qs⟩
  · exact ⟨_, rfl, rfl⟩
  · exact ⟨_, rfl, rfl⟩
  · exact ⟨_, rfl, rfl⟩

theorem poll_self {b : Broker} (reachable : b.reachable = true) (c : Consumer) :
    (b.poll c).2.1 = c := by
  cases hopen : c.cancelled with
  | true => rw [poll_of_over hopen]
  | false => exact (poll_of_open hopen reachable).1

namespace Mirrors

variable {tags consumers tags' consumers' : Nat → Nat → Prop} {n : String} {b b' b₁ b₁' : Broker}

theorem mono (h : Mirrors tags consumers n b b') (htags : ∀ x x', tags x x' → tags' x x')
    (hconsumers : ∀ x x', consumers x x' → consumers' x x') :
    Mirrors tags' consumers' n b b' :=
  ⟨h.ready, forall₂_mono h.held htags hconsumers⟩

theorem congr (h : Mirrors tags consumers n b b') (hready : b₁.readyMessages n = b.readyMessages n)
    (hheld : b₁.heldMessages n = b.heldMessages n)
    (hready' : b₁'.readyMessages n = b'.readyMessages n)
    (hheld' : b₁'.heldMessages n = b'.heldMessages n) : Mirrors tags consumers n b₁ b₁' := by
  refine ⟨?_, ?_⟩
  · rw [hready, hready']
    exact h.ready
  · rw [hheld, hheld']
    exact h.held

theorem changed {queue : String} {ready ready' : List StoredMessage} {held held' : List HeldMessage}
    (hb : Changed queue ready held b b₁) (hb' : Changed queue ready' held' b' b₁')
    (hready : ready.map StoredMessage.plain = ready'.map StoredMessage.plain)
    (hheld : Forall₂ (HeldMessage.Alike tags consumers) held held')
    (h : Mirrors tags consumers n b b') : Mirrors tags consumers n b₁ b₁' := by
  by_cases hn : n = queue
  · refine ⟨?_, ?_⟩
    · rw [hb.ready, hb'.ready, if_pos hn, if_pos hn, hready]
    · rw [hb.held, hb'.held, if_pos hn, if_pos hn]
      exact hheld
  · refine h.congr ?_ ?_ ?_ ?_
    · rw [hb.ready, if_neg hn]
    · rw [hb.held, if_neg hn]
    · rw [hb'.ready, if_neg hn]
    · rw [hb'.held, if_neg hn]

theorem posted {m m' : StoredMessage} {targets : List String}
    {new new' : String → List StoredMessage}
    (hb : Posted m targets b b₁ new) (hb' : Posted m' targets b' b₁' new') (hm : m.plain = m'.plain)
    (h : Mirrors tags consumers n b b') : Mirrors tags consumers n b₁ b₁' := by
  have hplain : ∀ {m : StoredMessage} {b b₁ : Broker} {new : String → List StoredMessage},
      Posted m targets b b₁ new →
      (new n).map StoredMessage.plain = replicate (targets.count n) m.plain := by
    intro m b b₁ new hposted
    refine eq_replicate_iff.mpr ⟨by rw [length_map, hposted.count], fun x hx => ?_⟩
    obtain ⟨y, hy, rfl⟩ := mem_map.mp hx
    rw [hposted.alike n y hy]
    rfl
  refine ⟨?_, ?_⟩
  · rw [hb.ready, hb'.ready, map_append, map_append, h.ready, hplain hb, hplain hb', hm]
  · rw [hb.held, hb'.held]
    exact h.held

section Consumers

variable (hconsumers : BiUnique consumers)

include hconsumers

theorem blocks_iff (h : Mirrors tags consumers n b b') {q q' : Queue} (hq : b.queue? n = some q)
    (hq' : b'.queue? n = some q') {id id' : Nat} (hid : consumers id id') (prefetch : Nat) :
    q.Blocks id prefetch ↔ q'.Blocks id' prefetch := by
  have hready := h.ready
  have hheld := h.held
  rw [readyMessages_of_some hq, readyMessages_of_some hq'] at hready
  rw [heldMessages_of_some hq, heldMessages_of_some hq'] at hheld
  have hnil : q.ready = [] ↔ q'.ready = [] := by
    rw [← map_eq_nil_iff (f := StoredMessage.plain), hready, map_eq_nil_iff]
  have hmine : q.outstanding id = q'.outstanding id' :=
    (forall₂_filter_consumer hheld hconsumers hid).length_eq
  rw [Queue.Blocks, Queue.Blocks, hnil, hmine]

theorem poll {c c' : Consumer} (known : (b.queue? c.queue).isSome)
    (known' : (b'.queue? c.queue).isSome) (reachable : b.reachable = true)
    (reachable' : b'.reachable = true) (hid : consumers c.id c'.id) (hqueue : c'.queue = c.queue)
    (hprefetch : c'.prefetch = c.prefetch) (hcancelled : c'.cancelled = c.cancelled)
    (h : Mirrors tags consumers c.queue b b') (htags : ∀ x x', tags x x' → tags' x x')
    (hnew : ∀ d d', (b.poll c).2.2 = .delivered d → (b'.poll c').2.2 = .delivered d' →
      tags' d.tag d'.tag) :
    PolledAlike tags' (b.poll c).2.2 (b'.poll c').2.2 ∧ ∀ n, Mirrors tags consumers n b b' →
      Mirrors tags' consumers n (b.poll c).1 (b'.poll c').1 := by
  cases hopen : c.cancelled with
  | true =>
    rw [poll_of_over hopen, poll_of_over (hcancelled.trans hopen)]
    exact ⟨.ended, fun n hn => hn.mono htags fun _ _ h => h⟩
  | false =>
    obtain ⟨q, hq⟩ := Option.isSome_iff_exists.mp known
    obtain ⟨q', hq'⟩ := Option.isSome_iff_exists.mp known'
    -- both find something in the queue, or both find nothing
    have hblocks := h.blocks_iff hconsumers hq hq' hid c.prefetch
    rw [poll_eq_tryTake hopen reachable,
      poll_eq_tryTake (hcancelled.trans hopen) reachable'] at hnew ⊢
    rcases tryTake_cases hq with ⟨hfull, htry⟩ | ⟨hfree, m, rest, hrest, htook, hchange⟩ <;>
      rcases tryTake_cases (c := c') (hqueue ▸ hq') with
        ⟨hfull', htry'⟩ | ⟨hfree', m', rest', hrest', htook', hchange'⟩
    · rw [htry, htry']
      refine ⟨.pending _ _, fun n hn => ?_⟩
      exact (hn.mono htags fun _ _ h => h).congr rfl rfl rfl rfl
    · rw [hprefetch] at hfree'
      exact absurd (hblocks.mp hfull) hfree'
    · rw [hprefetch] at hfull'
      exact absurd (hblocks.mpr hfull') hfree
    · have hready := h.ready
      rw [readyMessages_of_some hq, readyMessages_of_some hq', hrest, hrest', map_cons, map_cons,
        cons.injEq] at hready
      have hheld := h.held
      rw [heldMessages_of_some hq, heldMessages_of_some hq'] at hheld
      rw [htook, htook'] at hnew ⊢
      have htag : tags' (b.lastTag + 1) (b'.lastTag + 1) := hnew _ _ rfl rfl
      refine ⟨?_, fun n hn => ?_⟩
      · rw [hqueue, Option.elim_some, Option.elim_some, delivery_of_plain hready.1]
        exact .delivered htag
      · rw [hqueue] at hchange'
        refine .changed hchange hchange' hready.2 ?_
          ((hn.mono htags fun _ _ h => h).congr rfl rfl rfl rfl)
        refine rel_append (forall₂_mono hheld htags fun _ _ h => h) (.cons ?_ .nil)
        exact ⟨htag, hid, hready.1⟩

theorem close {c c' : Consumer} (hid : consumers c.id c'.id) (hqueue : c'.queue = c.queue)
    (h : Mirrors tags consumers c.queue b b') (hn : Mirrors tags consumers n b b') :
    Mirrors tags consumers n (b.close c).1 (b'.close c').1 := by
  have hchange' := b'.close_changed c'
  rw [hqueue] at hchange'
  refine .changed (b.close_changed c) hchange' ?_ ?_ hn
  · have hmine := forall₂_filter_consumer h.held hconsumers hid
    rw [map_append, map_append, map_comeBack_plain hmine, h.ready]
  · exact forall₂_filter_others h.held hconsumers hid

end Consumers

section Tags

variable (htags : BiUnique tags)

include htags

theorem release (h : Mirrors tags consumers n b b') (known : (b.queue? n).isSome)
    (known' : (b'.queue? n).isSome) {t t' : Nat} (ht : tags t t') :
    (b.release n t = (b, .error (unknownTag t)) ∧ b'.release n t' = (b', .error (unknownTag t'))) ∨
    ∃ m m' b₁ b₁', b.release n t = (b₁, .ok m) ∧ b'.release n t' = (b₁', .ok m') ∧
      m.plain = m'.plain ∧ SameGraph b b₁ ∧ SameGraph b' b₁' ∧
      ∀ k, Mirrors tags consumers k b b' → Mirrors tags consumers k b₁ b₁' := by
  obtain ⟨q, hq⟩ := Option.isSome_iff_exists.mp known
  obtain ⟨q', hq'⟩ := Option.isSome_iff_exists.mp known'
  have hready := h.ready
  have hheld := h.held
  rw [readyMessages_of_some hq, readyMessages_of_some hq'] at hready
  rw [heldMessages_of_some hq, heldMessages_of_some hq'] at hheld
  have hfind := find?_tag_alike hheld htags ht
  unfold Broker.release
  rw [hq, hq']
  dsimp only
  generalize (q.held.find? fun h => h.tag == t) = found at hfind
  generalize (q'.held.find? fun h => h.tag == t') = found' at hfind
  cases hfind with
  | none => exact .inl ⟨rfl, rfl⟩
  | @some x x' halike =>
    refine .inr ⟨x.message, x'.message, _, _, rfl, rfl, halike.message,
      .modifyQueue b n fun _ => rfl, .modifyQueue b' n fun _ => rfl, fun k hk => ?_⟩
    have hchange := changed_modifyQueue (f := fun q : Queue =>
      { q with held := q.held.filter fun h => h.tag != t }.notify) hq rfl rfl fun _ => rfl
    have hchange' := changed_modifyQueue (f := fun q : Queue =>
      { q with held := q.held.filter fun h => h.tag != t' }.notify) hq' rfl rfl fun _ => rfl
    exact .changed hchange hchange' hready (forall₂_filter_tag hheld htags ht) hk

theorem ack (h : Mirrors tags consumers n b b') (known : (b.queue? n).isSome)
    (known' : (b'.queue? n).isSome) {t t' : Nat} (ht : tags t t') :
    SettledAlike tags (b.ack n t).2 (b'.ack n t').2 ∧
      ∀ k, Mirrors tags consumers k b b' →
        Mirrors tags consumers k (b.ack n t).1 (b'.ack n t').1 := by
  unfold Broker.ack
  rcases h.release htags known known' ht with ⟨hnone, hnone'⟩ |
    ⟨m, m', b₁, b₁', hsome, hsome', -, -, -, hk⟩
  · rw [hnone, hnone']
    exact ⟨.unknown ht, fun k hk => hk⟩
  · rw [hsome, hsome']
    exact ⟨.done () (), hk⟩

end Tags

theorem requeue {m m' : StoredMessage} {queue : String} (h : Mirrors tags consumers queue b b')
    (known : (b.queue? queue).isSome) (known' : (b'.queue? queue).isSome)
    (hm : m.plain = m'.plain) (hn : Mirrors tags consumers n b b') :
    Mirrors tags consumers n (b.requeue queue m) (b'.requeue queue m') := by
  obtain ⟨q, hq⟩ := Option.isSome_iff_exists.mp known
  obtain ⟨q', hq'⟩ := Option.isSome_iff_exists.mp known'
  have hready := h.ready
  have hheld := h.held
  rw [readyMessages_of_some hq, readyMessages_of_some hq'] at hready
  rw [heldMessages_of_some hq, heldMessages_of_some hq'] at hheld
  have hchange := changed_requeue hq ⟨0, 0, m⟩
  have hchange' := changed_requeue hq' ⟨0, 0, m'⟩
  refine .changed hchange hchange' ?_ hheld hn
  rw [map_cons, map_cons, hready, comeBack, comeBack, plain_redelivered hm]

section Graph

variable (graph : SameGraph b b')

include graph

theorem deadLetter {m m' : StoredMessage} (queue : String) (hm : m.plain = m'.plain)
    (h : Mirrors tags consumers n b b') :
    Mirrors tags consumers n (b.deadLetter queue m).1 (b'.deadLetter queue m').1 := by
  obtain ⟨new, hnew⟩ := posted_deadLetter b queue m
  obtain ⟨new', hnew'⟩ := posted_deadLetter b' queue m'
  rw [graph.deadTargets, graph.deadLetterTarget?] at hnew'
  refine .posted hnew hnew' ?_ h
  cases b.deadLetterTarget? queue with
  | none => exact hm
  | some t => exact plain_deadAt hm t

theorem reject (htags : BiUnique tags) {queue : String} (h : Mirrors tags consumers queue b b')
    (known : (b.queue? queue).isSome) (known' : (b'.queue? queue).isSome) {t t' : Nat}
    (ht : tags t t') (back : Bool) :
    SettledAlike tags (b.reject queue t back).2 (b'.reject queue t' back).2 ∧
      ∀ k, Mirrors tags consumers k b b' →
        Mirrors tags consumers k (b.reject queue t back).1 (b'.reject queue t' back).1 := by
  unfold Broker.reject
  rcases h.release htags known known' ht with ⟨hnone, hnone'⟩ |
    ⟨m, m', b₁, b₁', hsome, hsome', hm, hgraph, hgraph', hmirrors⟩
  · rw [hnone, hnone']
    exact ⟨.unknown ht, fun k hk => hk⟩
  · rw [hsome, hsome']
    cases back with
    | true =>
      rw [← hgraph.isSome_queue?] at known
      rw [← hgraph'.isSome_queue?] at known'
      exact ⟨.done _ _, fun k hk => (hmirrors queue h).requeue known known' hm (hmirrors k hk)⟩
    | false =>
      have hgraph₁ : SameGraph b₁ b₁' := hgraph.symm.trans (graph.trans hgraph')
      exact ⟨.done _ _, fun k hk => (hmirrors k hk).deadLetter hgraph₁ queue hm⟩

theorem send (reachable : b.reachable = true) (reachable' : b'.reachable = true) (o : Outbound)
    (h : Mirrors tags consumers n b b') :
    Mirrors tags consumers n (b.send o).1 (b'.send o).1 := by
  obtain ⟨c, hok, hok'⟩ := graph.send_snd reachable reachable' o
  rcases b.send_cases o with ⟨e, he, -⟩ | ⟨-, new, -, hnew⟩
  · rw [hok] at he
    cases he
  rcases b'.send_cases o with ⟨e, he, -⟩ | ⟨-, new', -, hnew'⟩
  · rw [hok'] at he
    cases he
  rw [graph.knownTargets] at hnew'
  exact .posted hnew hnew' rfl h

end Graph

end Mirrors
end Broker
end OutcomeRelay
