import OutcomeRelay.Proofs.BusConservation

/-!
Who holds a message. A consumer takes a delivery by a poll of its own, and keeps it until the
delivery is settled or the consumer is closed. Consumers keep their queues, and their numbers are
given once.
-/

namespace OutcomeRelay

namespace Bus

open Broker

section Consumers

variable {s : Bus} {id : Nat} {c : Consumer}

theorem id_of_consumer? (h : s.consumer? id = some c) : c.id = id := by
  simpa using List.find?_some h

structure Registered (s : Bus) : Prop where
  consumers : ∀ c ∈ s.consumers, c.id ≤ s.broker.lastConsumer
  holders : ∀ n, ∀ g ∈ s.broker.heldMessages n, s.queueOf? g.consumer = some n

theorem consumer?_setConsumer (s : Bus) (c : Consumer) (id : Nat) :
    (s.setConsumer c).consumer? id = if id = c.id then (s.consumer? id).map fun _ => c
      else s.consumer? id := by
  have hid : ((fun x : Consumer => x.id == id) ∘ fun x => if x.id == c.id then c else x) =
      fun x => x.id == id := by
    funext x
    simp only [Function.comp_apply]
    split
    · next h => rw [beq_iff_eq.mp h]
    · rfl
  simp only [consumer?, setConsumer, List.find?_map, hid]
  cases h : s.consumers.find? fun x => x.id == id with
  | none => simp
  | some x =>
    have hx : x.id = id := by simpa using List.find?_some h
    simp only [Option.map_some, hx, beq_iff_eq]
    split <;> rfl

theorem ids_setConsumer (s : Bus) (c : Consumer) :
    (s.setConsumer c).consumers.map Consumer.id = s.consumers.map Consumer.id := by
  simp only [setConsumer, List.map_map]
  refine List.map_congr_left fun x _ => ?_
  simp only [Function.comp_apply]
  split
  · next h => rw [beq_iff_eq.mp h]
  · rfl

theorem queueOf?_setConsumer {s' : Bus} {c' : Consumer} (hs : s'.consumers = s.consumers)
    (h : s.consumer? id = some c) (hid : c'.id = c.id) (hqueue : c'.queue = c.queue) (k : Nat) :
    (s'.setConsumer c').queueOf? k = s.queueOf? k := by
  have hsame : s'.consumer? k = s.consumer? k := by rw [consumer?, hs, consumer?]
  rw [queueOf?, queueOf?, consumer?_setConsumer, hsame]
  split
  · next hk =>
    rw [hk, hid, id_of_consumer? h, h, Option.map_some, Option.map_some, Option.map_some, hqueue]
  · rfl

end Consumers

end Bus

namespace Broker

variable (b : Broker) (c : Consumer)

theorem poll_consumer : (b.poll c).2.1.id = c.id ∧ (b.poll c).2.1.queue = c.queue := by
  unfold poll
  dsimp only
  repeat' split
  all_goals exact ⟨rfl, rfl⟩

theorem close_consumer : (b.close c).2.1.id = c.id ∧ (b.close c).2.1.queue = c.queue := by
  unfold close
  dsimp only
  repeat' split
  all_goals exact ⟨rfl, rfl⟩

theorem consume_cases (b : Broker) (queue : String) (prefetch : Nat) :
    (∃ e, b.consume queue prefetch = (b, .error e)) ∨
    b.consume queue prefetch = ({ b with lastConsumer := b.lastConsumer + 1 },
      .ok ⟨b.lastConsumer + 1, queue, prefetch, false⟩) := by
  unfold consume whenReachable
  repeat' split
  all_goals first | exact .inl ⟨_, rfl⟩ | exact .inr rfl

end Broker

namespace Bus

open Broker

theorem consumer?_append {s : Bus} {c : Consumer} (b : Broker) (hnew : s.consumer? c.id = none)
    (k : Nat) : (⟨b, s.consumers ++ [c]⟩ : Bus).consumer? k =
      if k = c.id then some c else s.consumer? k := by
  simp only [consumer?, List.find?_append] at hnew ⊢
  by_cases hk : k = c.id
  · subst hk
    rw [hnew, Option.none_or, List.find?_cons_of_pos (by simp), if_pos rfl]
  · rw [List.find?_cons_of_neg (by simpa using Ne.symm hk), List.find?_nil, Option.or_none,
      if_neg hk]

theorem queueOf?_append {s : Bus} {c : Consumer} (b : Broker) (hnew : s.consumer? c.id = none)
    (k : Nat) : (⟨b, s.consumers ++ [c]⟩ : Bus).queueOf? k =
      if k = c.id then some c.queue else s.queueOf? k := by
  rw [queueOf?, consumer?_append b hnew, queueOf?]
  split <;> rfl

theorem Registered.consumer?_new {s : Bus} (hs : Registered s) :
    s.consumer? (s.broker.lastConsumer + 1) = none := by
  rw [consumer?, List.find?_eq_none]
  intro c hc
  have := hs.consumers c hc
  simp only [beq_iff_eq]
  omega

theorem Registered.queueOf?_new {s : Bus} (hs : Registered s) :
    s.queueOf? (s.broker.lastConsumer + 1) = none := by
  rw [queueOf?, hs.consumer?_new, Option.map_none]

theorem Effect.lastConsumer {s : Bus} {op : Op} {reply : Reply} {b : Broker}
    (h : Effect s op reply b) : s.broker.lastConsumer ≤ b.lastConsumer := by
  cases h with
  | quiet _ same => exact same.lastConsumer
  | posted put => exact Nat.le_of_eq put.lastConsumer.symm
  | taken found ready change => exact Nat.le_of_eq change.lastConsumer.symm
  | acked holds change | requeued holds change => exact Nat.le_of_eq change.lastConsumer.symm
  | closed found change => exact Nat.le_of_eq change.lastConsumer.symm
  | died holds change put => exact Nat.le_of_eq (put.lastConsumer.trans change.lastConsumer).symm

inductive Enrolled (s s' : Bus) : Op → Reply → Prop where
  | same {op : Op} {reply : Reply} (queues : ∀ k, s'.queueOf? k = s.queueOf? k)
      (ids : s'.consumers.map Consumer.id = s.consumers.map Consumer.id)
      (unopened : ∀ k, reply ≠ .opened k) : Enrolled s s' op reply
  | opened {queue : String} {prefetch : Nat}
      (queues : ∀ k, s'.queueOf? k =
        if k = s.broker.lastConsumer + 1 then some queue else s.queueOf? k)
      (ids : s'.consumers.map Consumer.id =
        s.consumers.map Consumer.id ++ [s.broker.lastConsumer + 1])
      (last : s'.broker.lastConsumer = s.broker.lastConsumer + 1) :
      Enrolled s s' (.consume queue prefetch) (.opened (s.broker.lastConsumer + 1))

theorem Reply.ofResult_ne_opened {α : Type} (r : Except BusError α) (k : Nat) :
    Reply.ofResult r ≠ .opened k := by
  cases r <;> nofun

theorem enrolled_perform {s : Bus} (hs : Registered s) (op : Op) :
    Enrolled s (s.perform op).1 op (s.perform op).2 := by
  cases op with
  | declare t | declareEntity t | ack _ t | reject _ t _ =>
    exact .same (fun _ => rfl) rfl (Reply.ofResult_ne_opened _)
  | send o =>
    refine .same (fun _ => rfl) rfl fun k => ?_
    simp only [perform]
    split <;> simp
  | setReachable v => exact .same (fun _ => rfl) rfl (by simp [perform])
  | consume queue prefetch =>
    simp only [perform]
    rcases s.broker.consume_cases queue prefetch with ⟨e, he⟩ | hok
    · rw [he]
      exact .same (fun _ => rfl) rfl (by simp)
    · rw [hok]
      refine .opened (fun k => queueOf?_append _ ?_ k) ?_ rfl
      · exact hs.consumer?_new
      · exact List.map_append
  | poll id =>
    simp only [perform]
    split
    · exact .same (fun _ => rfl) rfl (by simp)
    · next c hc =>
      obtain ⟨hid, hqueue⟩ := s.broker.poll_consumer c
      exact .same (queueOf?_setConsumer rfl hc hid hqueue) (ids_setConsumer _ _) (by simp)
  | cancel id =>
    simp only [perform]
    split
    · exact .same (fun _ => rfl) rfl (by simp)
    · next c hc => exact .same (queueOf?_setConsumer rfl hc rfl rfl) (ids_setConsumer _ _) (by simp)
  | close id =>
    simp only [perform]
    split
    · exact .same (fun _ => rfl) rfl (by simp)
    · next c hc =>
      obtain ⟨hid, hqueue⟩ := s.broker.close_consumer c
      exact .same (queueOf?_setConsumer rfl hc hid hqueue) (ids_setConsumer _ _) (by simp)

theorem Effect.held_cases {s : Bus} {op : Op} {reply : Reply} {b : Broker}
    (h : Effect s op reply b) {n : String} {g : HeldMessage} (hg : g ∈ b.heldMessages n) :
    g ∈ s.broker.heldMessages n ∨
    (op = .poll g.consumer ∧ s.queueOf? g.consumer = some n ∧ g.tag = s.broker.lastTag + 1 ∧
      reply = .polled (.delivered (delivery n g.tag g.message))) := by
  cases h with
  | quiet _ same => exact .inl (same.messages.held n ▸ hg)
  | posted put => exact .inl (put.held n ▸ hg)
  | acked holds change | requeued holds change =>
    exact .inl ((change.held_sublist List.filter_sublist n).subset hg)
  | closed found change => exact .inl ((change.held_sublist List.filter_sublist n).subset hg)
  | died holds change put =>
    exact .inl ((change.held_sublist List.filter_sublist n).subset (put.held n ▸ hg))
  | @taken id c m rest b found ready change =>
    rw [change.held] at hg
    split at hg
    · next hn =>
      rcases List.mem_append.mp hg with hg | hg
      · exact .inl (hn ▸ hg)
      · right
        obtain rfl := List.mem_singleton.mp hg
        obtain rfl := id_of_consumer? found
        subst hn
        exact ⟨rfl, by rw [queueOf?, found, Option.map_some], rfl, rfl⟩
    · exact .inl hg

theorem Effect.held_left {s : Bus} {op : Op} {reply : Reply} {b : Broker}
    (h : Effect s op reply b) {n : String} {g : HeldMessage} (hg : g ∈ s.broker.heldMessages n) :
    g ∈ b.heldMessages n ∨ (op.delivery? = some (n, g.tag) ∧ reply = .done) ∨
    (op = .close g.consumer ∧ reply = .done ∧ g ∉ b.heldMessages n ∧
      comeBack g ∈ b.readyMessages n) := by
  cases h with
  | quiet _ same => exact .inl (same.messages.held n ▸ hg)
  | posted put => exact .inl (put.held n ▸ hg)
  | @acked queue x b holds change | @requeued queue x b holds change =>
    rw [change.held]
    split
    · next hn =>
      subst hn
      by_cases htag : g.tag = x.tag
      · exact .inr (.inl ⟨by rw [htag]; rfl, rfl⟩)
      · exact .inl (List.mem_filter.mpr ⟨hg, by simpa using htag⟩)
    · exact .inl hg
  | @died queue x b₀ b new holds change put =>
    rw [put.held, change.held]
    split
    · next hn =>
      subst hn
      by_cases htag : g.tag = x.tag
      · exact .inr (.inl ⟨by rw [htag]; rfl, rfl⟩)
      · exact .inl (List.mem_filter.mpr ⟨hg, by simpa using htag⟩)
    · exact .inl hg
  | @closed id c b found change =>
    rw [change.held, change.ready]
    split
    · next hn =>
      subst hn
      by_cases hmine : g.consumer = c.id
      · refine .inr (.inr ⟨by rw [hmine, id_of_consumer? found], rfl, ?_, ?_⟩)
        · simp [hmine]
        · exact List.mem_append_left _
            (List.mem_map_of_mem (List.mem_filter.mpr ⟨hg, by simpa using hmine⟩))
      · exact .inl (List.mem_filter.mpr ⟨hg, by simpa using hmine⟩)
    · exact .inl hg
  | @taken id c m rest b found ready change =>
    rw [change.held]
    split
    · next hn => exact .inl (List.mem_append_left _ (hn ▸ hg))
    · exact .inl hg

theorem queueOf?_perform {s : Bus} (hs : Registered s) (op : Op) {id : Nat} {n : String}
    (h : s.queueOf? id = some n) : (s.perform op).1.queueOf? id = some n := by
  have henrolled := enrolled_perform hs op
  generalize (s.perform op).2 = reply at henrolled
  cases henrolled with
  | same queues => rw [queues, h]
  | opened queues =>
    rw [queues, if_neg, h]
    intro hid
    rw [hid, hs.queueOf?_new] at h
    cases h

theorem registered_perform {s : Bus} (hs : Registered s) (op : Op) :
    Registered (s.perform op).1 := by
  have heffect := perform_effect s op
  have hlast := heffect.lastConsumer
  refine ⟨fun c hc => ?_, fun n g hg => ?_⟩
  · have hid : c.id ∈ (s.perform op).1.consumers.map Consumer.id := List.mem_map_of_mem hc
    have hold : c.id ∈ s.consumers.map Consumer.id → c.id ≤ s.broker.lastConsumer := fun hmem => by
      obtain ⟨x, hx, heq⟩ := List.mem_map.mp hmem
      exact heq ▸ hs.consumers x hx
    have henrolled := enrolled_perform hs op
    generalize (s.perform op).2 = reply at henrolled
    cases henrolled with
    | same _ ids _ => exact Nat.le_trans (hold (ids ▸ hid)) hlast
    | opened _ ids last =>
      rw [ids] at hid
      rcases List.mem_append.mp hid with hid | hid
      · exact Nat.le_trans (hold hid) hlast
      · exact Nat.le_of_eq ((List.mem_singleton.mp hid).trans last.symm)
  · have hqueue : s.queueOf? g.consumer = some n := by
      rcases heffect.held_cases hg with hg | ⟨-, hqueue, -, -⟩
      · exact hs.holders n g hg
      · exact hqueue
    exact queueOf?_perform hs op hqueue

theorem registered_run (ops : List Op) : Registered (History.run ops).bus := by
  refine History.run_induction (P := fun h => Registered h.bus) ?_ ?_ ops
  · exact ⟨by simp, fun n g hg => absurd hg List.not_mem_nil⟩
  · exact fun h op hs => registered_perform hs op

theorem not_held_of_closed {s : Bus} {id : Nat} {n : String} (hqueue : s.queueOf? id = some n)
    {g : HeldMessage} (hg : g ∈ (s.perform (.close id)).1.broker.heldMessages n) :
    g.consumer ≠ id := by
  obtain ⟨c, hc, rfl⟩ := Option.map_eq_some_iff.mp hqueue
  obtain rfl := id_of_consumer? hc
  simp only [perform, hc] at hg
  have hheld := (s.broker.close_changed c).held c.queue
  rw [if_pos rfl] at hheld
  change g ∈ (s.broker.close c).1.heldMessages c.queue at hg
  rw [hheld] at hg
  simpa using (List.mem_filter.mp hg).2

theorem held_of_delivered {s : Bus} {id : Nat} {d : Delivery}
    (hreply : (s.perform (.poll id)).2 = .polled (.delivered d)) :
    ∃ n m, s.queueOf? id = some n ∧ d = delivery n (s.broker.lastTag + 1) m ∧
      (⟨s.broker.lastTag + 1, id, m⟩ : HeldMessage) ∈
        (s.perform (.poll id)).1.broker.heldMessages n ∧
      (s.perform (.poll id)).1.broker.lastTag = s.broker.lastTag + 1 := by
  have heffect := perform_effect s (.poll id)
  rw [hreply] at heffect
  generalize (s.perform (.poll id)).1.broker = b at heffect
  cases heffect with
  | quiet silent => exact silent.elim
  | @taken _ c m rest _ found ready change =>
    obtain rfl := id_of_consumer? found
    refine ⟨c.queue, m, by rw [queueOf?, found, Option.map_some], rfl, ?_, change.lastTag⟩
    rw [change.held, if_pos rfl]
    exact List.mem_append_right _ (.head _)

theorem reply_of_delivery {s : Bus} {op : Op} {d : String × Nat} (h : op.delivery? = some d) :
    (s.perform op).2 = .ofResult (s.perform op).2.answer := by
  cases op with
  | ack n tag =>
    simp only [perform]
    cases (s.broker.ack n tag).2 <;> rfl
  | reject n tag back =>
    simp only [perform]
    cases (s.broker.reject n tag back).2 <;> rfl
  | _ => cases h

theorem Effect.lastTag {s : Bus} {op : Op} {reply : Reply} {b : Broker}
    (h : Effect s op reply b) : s.broker.lastTag ≤ b.lastTag := by
  cases h with
  | quiet _ same => exact same.lastTag
  | posted put => exact Nat.le_of_eq put.lastTag.symm
  | taken found ready change => rw [change.lastTag]; exact Nat.le_succ _
  | acked holds change | requeued holds change => exact Nat.le_of_eq change.lastTag.symm
  | closed found change => exact Nat.le_of_eq change.lastTag.symm
  | died holds change put => exact Nat.le_of_eq (put.lastTag.trans change.lastTag).symm

end Bus
end OutcomeRelay
