import OutcomeRelay.Proofs.BusCustody

/-!
Deliveries. Every message that is handed out goes out under a tag of its own. A delivery ends when
it is settled, either way, or when its holder is closed; it ends once, and who tries to settle it
afterwards is refused and changes nothing, even if the message is on its way again by then.
-/

namespace OutcomeRelay

namespace Broker

def Holds (b : Broker) (queue : String) (tag : Nat) : Prop :=
  ∃ g ∈ b.heldMessages queue, g.tag = tag

variable {b b' : Broker} {n : String} {t : Nat}

theorem Tagged.le_of_holds (hb : Tagged b) (h : b.Holds n t) : t ≤ b.lastTag := by
  obtain ⟨g, hg, rfl⟩ := h
  exact hb.bounded n g hg

theorem not_holds_of_filter {queue : String}
    (h : b'.heldMessages queue = (b.heldMessages queue).filter fun g => g.tag != t) :
    ¬ b'.Holds queue t := by
  rintro ⟨g, hg, htag⟩
  rw [h] at hg
  have hother : g.tag ≠ t := by simpa using (List.mem_filter.mp hg).2
  exact hother htag

theorem release_of_not_holds (h : ¬ b.Holds n t) :
    ∃ reason, b.release n t = (b, .error (.ack reason)) := by
  unfold release
  split
  · exact ⟨_, rfl⟩
  · next q hq =>
    split
    · exact ⟨_, rfl⟩
    · next g hfind =>
      refine absurd ⟨g, ?_, by simpa using List.find?_some hfind⟩ h
      rw [heldMessages_of_some hq]
      exact List.mem_of_find?_eq_some hfind

end Broker

namespace Bus

open Broker

namespace Entry

def delivered? (e : Entry) : Option Delivery :=
  match e.reply with
  | .polled (.delivered d) => some d
  | _ => none

/-- The operation ended a delivery: it settled it, or closed the consumer that held it. -/
inductive Ends (e : Entry) (queue : String) (tag : Nat) : Prop where
  | settled (names : e.op.delivery? = some (queue, tag)) (done : e.reply = .done)
  | closed (g : HeldMessage) (op : e.op = .close g.consumer)
      (holds : g ∈ e.before.heldMessages queue) (under : g.tag = tag)

theorem delivered?_eq_some {e : Entry} {d : Delivery} (h : e.delivered? = some d) :
    e.reply = .polled (.delivered d) := by
  unfold delivered? at h
  split at h
  · next hreply => rw [hreply, Option.some.inj h]
  · cases h

end Entry

section Steps

variable {s : Bus} {op : Op} {reply : Reply} {b : Broker} {n : String} {t : Nat}

theorem Effect.settles (h : Effect s op reply b) (names : op.delivery? = some (n, t))
    (done : reply = .done) : s.broker.Holds n t ∧ ¬ b.Holds n t := by
  cases h with
  | quiet silent =>
    cases op <;> cases names
    all_goals
      rw [done] at silent
      exact silent.elim
  | posted | taken | closed => cases names
  | @acked queue g b holds change | @requeued queue g b holds change =>
    cases names
    exact ⟨⟨g, holds, rfl⟩, not_holds_of_filter ((change.held n).trans (if_pos rfl))⟩
  | @died queue g b₀ b new holds change put =>
    cases names
    refine ⟨⟨g, holds, rfl⟩, not_holds_of_filter (b := s.broker) ?_⟩
    rw [put.held, change.held, if_pos rfl]

theorem ends_iff (hs : Registered s) (htagged : Tagged s.broker) (op : Op) (n : String) (t : Nat) :
    (⟨s.broker, op, (s.perform op).2, (s.perform op).1.broker⟩ : Entry).Ends n t ↔
      s.broker.Holds n t ∧ ¬ (s.perform op).1.broker.Holds n t := by
  have heffect := perform_effect s op
  constructor
  · rintro (⟨names, done⟩ | ⟨g, rfl, holds, rfl⟩)
    · exact heffect.settles names done
    · refine ⟨⟨g, holds, rfl⟩, ?_⟩
      rintro ⟨g', hg', htag⟩
      -- who holds it now held it before under this tag, and is the one that was closed
      rcases heffect.held_cases hg' with hold | ⟨hpoll, -⟩
      · obtain rfl := htagged.eq_of_tag hold holds htag
        exact not_held_of_closed (hs.holders n g' hold) hg' rfl
      · cases hpoll
  · rintro ⟨⟨g, hg, rfl⟩, hgone⟩
    rcases heffect.held_left hg with hstill | ⟨names, done⟩ | ⟨rfl, -, -⟩
    · exact absurd ⟨g, hstill, rfl⟩ hgone
    · exact .settled names done
    · exact .closed g rfl hg rfl

theorem poll_of_polled {result : Polled} (h : (s.perform op).2 = .polled result) :
    ∃ id, op = .poll id := by
  have hresult : ∀ {α : Type} (r : Except BusError α), Reply.ofResult r ≠ .polled result := by
    rintro α (_ | _) <;> nofun
  cases op with
  | poll id => exact ⟨id, rfl⟩
  | declare | declareEntity | ack | reject => exact absurd h (hresult _)
  | setReachable => cases h
  | send | consume | cancel | close =>
    simp only [perform] at h
    split at h <;> cases h

theorem perform_of_not_holds (names : op.delivery? = some (n, t)) (h : ¬ s.broker.Holds n t) :
    ∃ reason, s.perform op = (s, .failed (.ack reason)) := by
  obtain ⟨reason, hrefused⟩ := release_of_not_holds h
  refine ⟨reason, ?_⟩
  cases op <;> cases names
  · simp only [perform, Broker.ack, hrefused]
    rfl
  · simp only [perform, Broker.reject, hrefused]
    rfl

end Steps

namespace History

def deliveries (h : History) : List Delivery :=
  h.entries.filterMap Entry.delivered?

/-- Every delivery has a tag of its own and ends at most once. Whoever would settle it after its end
is refused, and the broker stays as it is. -/
structure SettledOnce (h : History) : Prop where
  tags : h.deliveries.Pairwise fun d d' => d.tag < d'.tag
  ended : ∀ e ∈ h.entries, ∀ n t, e.Ends n t ↔ e.before.Holds n t ∧ ¬ e.after.Holds n t
  held : ∀ d ∈ h.deliveries,
    h.broker.Holds d.queue d.tag ↔ ∀ e ∈ h.entries, ¬ e.Ends d.queue d.tag
  once : h.entries.Pairwise fun e e' => ∀ n t, e.Ends n t → ¬ e'.Ends n t
  stale : h.entries.Pairwise fun e e' => ∀ n t, e.Ends n t → e'.op.delivery? = some (n, t) →
    (∃ reason, e'.reply = .failed (.ack reason)) ∧ e'.after = e'.before

structure Delivering (h : History) : Prop where
  once : h.SettledOnce
  given : ∀ d ∈ h.deliveries, d.tag ≤ h.broker.lastTag
  ended : ∀ e ∈ h.entries, ∀ n t, e.Ends n t → t ≤ h.broker.lastTag ∧ ¬ h.broker.Holds n t

namespace Delivering

variable {h : History}

theorem init : Delivering {} where
  once := ⟨.nil, by simp, by simp [deliveries], .nil, .nil⟩
  given := by simp [deliveries]
  ended := by simp

theorem deliveries_perform (h : History) (op : Op) :
    (h.perform op).1.deliveries = h.deliveries ++ (h.next op).delivered?.toList := by
  rw [deliveries, entries_perform, List.filterMap_append]
  cases hd : (h.next op).delivered? <;> simp [deliveries, hd]

theorem next_delivered {op : Op} {d : Delivery} (hd : (h.next op).delivered? = some d) :
    d.tag = h.broker.lastTag + 1 ∧ (h.perform op).1.broker.Holds d.queue d.tag ∧
      (h.perform op).1.broker.lastTag = h.broker.lastTag + 1 := by
  have hreply : (h.bus.perform op).2 = .polled (.delivered d) := Entry.delivered?_eq_some hd
  obtain ⟨id, rfl⟩ := poll_of_polled hreply
  obtain ⟨n, m, -, rfl, hheld, hlast⟩ := held_of_delivered hreply
  exact ⟨rfl, ⟨_, hheld, rfl⟩, hlast⟩

theorem holds_before {op : Op} {n : String} {t : Nat} (ht : t ≤ h.broker.lastTag)
    (hnow : (h.perform op).1.broker.Holds n t) : h.broker.Holds n t := by
  obtain ⟨g, hg, rfl⟩ := hnow
  rcases (perform_effect h.bus op).held_cases hg with hg | ⟨-, -, hnew, -⟩
  · exact ⟨g, hg, rfl⟩
  · have hlast : h.bus.broker.lastTag = h.broker.lastTag := rfl
    omega

theorem next_ends_iff (hs : Registered h.bus) (htagged : Tagged h.broker) (op : Op) (n : String)
    (t : Nat) :
    (h.next op).Ends n t ↔ h.broker.Holds n t ∧ ¬ (h.perform op).1.broker.Holds n t :=
  ends_iff hs htagged op n t

section Perform

variable (hh : Delivering h) (hs : Registered h.bus) (htagged : Tagged h.broker) (op : Op)

include hh

theorem tags_perform : (h.perform op).1.deliveries.Pairwise fun d d' => d.tag < d'.tag := by
  rw [deliveries_perform]
  refine List.pairwise_append.mpr ⟨hh.once.tags, ?_, fun d hd d' hd' => ?_⟩
  · cases (h.next op).delivered? <;> simp
  · rw [(next_delivered (Option.mem_toList.mp hd')).1]
    exact Nat.lt_succ_of_le (hh.given d hd)

theorem given_perform :
    ∀ d ∈ (h.perform op).1.deliveries, d.tag ≤ (h.perform op).1.broker.lastTag := by
  intro d hd
  rw [deliveries_perform] at hd
  rcases List.mem_append.mp hd with hd | hd
  · exact Nat.le_trans (hh.given d hd) (perform_effect h.bus op).lastTag
  · obtain ⟨htag, -, hgiven⟩ := next_delivered (Option.mem_toList.mp hd)
    omega

include hs htagged

theorem over_perform : ∀ e ∈ (h.perform op).1.entries, ∀ n t, e.Ends n t →
    t ≤ (h.perform op).1.broker.lastTag ∧ ¬ (h.perform op).1.broker.Holds n t := by
  have hlast : h.broker.lastTag ≤ (h.perform op).1.broker.lastTag :=
    (perform_effect h.bus op).lastTag
  intro e he n t hend
  rcases List.mem_append.mp he with he | he
  · obtain ⟨hgiven, hgone⟩ := hh.ended e he n t hend
    exact ⟨Nat.le_trans hgiven hlast, fun hnow => hgone (holds_before hgiven hnow)⟩
  · rw [List.mem_singleton.mp he] at hend
    obtain ⟨hheld, hgone⟩ := (next_ends_iff hs htagged op n t).mp hend
    exact ⟨Nat.le_trans (htagged.le_of_holds hheld) hlast, hgone⟩

theorem held_perform : ∀ d ∈ (h.perform op).1.deliveries,
    (h.perform op).1.broker.Holds d.queue d.tag ↔
      ∀ e ∈ (h.perform op).1.entries, ¬ e.Ends d.queue d.tag := by
  intro d hd
  have hends := next_ends_iff hs htagged op d.queue d.tag
  rw [entries_perform]
  simp only [List.forall_mem_append, List.forall_mem_singleton]
  rw [deliveries_perform] at hd
  rcases List.mem_append.mp hd with hd | hd
  · rw [hends, ← hh.once.held d hd]
    constructor
    · exact fun hnow => ⟨holds_before (hh.given d hd) hnow, fun h => h.2 hnow⟩
    · exact fun ⟨hheld, hkept⟩ => Classical.not_not.mp fun hgone => hkept ⟨hheld, hgone⟩
  · -- the delivery is new, and what has ended is not
    obtain ⟨htag, hnow, -⟩ := next_delivered (Option.mem_toList.mp hd)
    refine ⟨fun _ => ⟨fun e he hend => ?_, fun hend => (hends.mp hend).2 hnow⟩, fun _ => hnow⟩
    have := (hh.ended e he _ _ hend).1
    omega

theorem perform : Delivering (h.perform op).1 := by
  have hends := next_ends_iff hs htagged op
  refine ⟨⟨hh.tags_perform op, fun e he => ?_, hh.held_perform hs htagged op, ?_, ?_⟩,
    hh.given_perform op, hh.over_perform hs htagged op⟩
  · rcases List.mem_append.mp he with he | he
    · exact hh.once.ended e he
    · rw [List.mem_singleton.mp he]
      exact hends
  · refine List.pairwise_append.mpr ⟨hh.once.once, List.pairwise_singleton _ _, ?_⟩
    rintro e he e' he' n t hend hagain
    rw [List.mem_singleton.mp he'] at hagain
    exact (hh.ended e he n t hend).2 ((hends n t).mp hagain).1
  · refine List.pairwise_append.mpr ⟨hh.once.stale, List.pairwise_singleton _ _, ?_⟩
    rintro e he e' he' n t hend names
    rw [List.mem_singleton.mp he'] at names ⊢
    obtain ⟨reason, hrefused⟩ := perform_of_not_holds names (hh.ended e he n t hend).2
    exact ⟨⟨reason, congrArg Prod.snd hrefused⟩, congrArg (fun r => r.1.broker) hrefused⟩

end Perform
end Delivering

/-- Whatever clients do, a delivery is settled at most once, and late settlements do no harm. -/
theorem settledOnce_run (ops : List Op) : (run ops).SettledOnce := by
  have hrun : ∀ h op, Delivering h ∧ Books h ∧ Registered h.bus →
      Delivering (h.perform op).1 ∧ Books (h.perform op).1 ∧ Registered (h.perform op).1.bus :=
    fun h op ⟨hh, hb, hs⟩ => ⟨hh.perform hs hb.tagged op, hb.perform op, registered_perform hs op⟩
  have hinit : Delivering {} ∧ Books {} ∧ Registered ({} : History).bus :=
    ⟨.init, .init, registered_run []⟩
  exact (run_induction hinit hrun ops).1.once

end History
end Bus
end OutcomeRelay
