import OutcomeRelay.Proofs.SignalAccounting

/-!
The end of a monitor. Once every publisher was dropped and every watch has gone, nobody comes back,
and each look of the monitor brings it nearer to its end. So it stops if it goes on looking,
whatever else happens and whichever of the two channels it looks at first.
-/

namespace OutcomeRelay.Publisher

open Signal (Channel)

def Monitor.togo : Monitor → Nat
  | .listening _ none => 2
  | .listening _ (some _) => 1
  | .stopped _ => 0

theorem Monitor.togo_findClosed {m : Monitor} {ch : Channel} (looks : m.looksAt ch) :
    (m.findClosed ch).togo < m.togo := by
  rcases m with ⟨_, _ | other⟩ | _
  · exact Nat.lt_succ_self 1
  · have hother : other ≠ ch := by simpa [looksAt] using looks
    rw [findClosed, if_neg hother]
    exact Nat.one_pos
  · cases looks

theorem Ends.eq_empty_without (ch : Channel) : ({} : Ends).without ch = {} := by
  cases ch <;> rfl

namespace Flow

variable {f f' : Flow} {ch : Channel} {moves : Nat → Move}

structure Deserted (f : Flow) : Prop where
  dropped : ∀ e ∈ f.publishers, e = {}
  left : ∀ s ∈ f.postings, s.ends = {}

/-- Each signal may open a channel again that was found closed, so it weighs two looks. -/
def togo (f : Flow) : Nat :=
  2 * f.queued.length + f.monitor.togo

theorem togo_heard {x : Signal} {rest : List Signal} {summary : MonitorSummary}
    {off : Option Channel} (first : f.waiting ch = x :: rest)
    (listening : f.monitor = .listening summary off) :
    togo { f.behind ch with
      heard := f.heard ++ [x], monitor := .listening (summary.add x) none } < f.togo := by
  have hlength : f.queued.length = (f.behind ch).queued.length + 1 :=
    (queued_behind first).length_eq
  have hbehind : { f.behind ch with
      heard := f.heard ++ [x], monitor := .listening (summary.add x) none }.queued.length =
      (f.behind ch).queued.length := by
    cases ch <;> rfl
  have hmonitor : 0 < f.monitor.togo := by
    rw [listening]
    cases off
    exacts [Nat.two_pos, Nat.one_pos]
  rw [togo, togo, hbehind, Monitor.togo]
  omega

theorem togo_findClosed (looks : f.monitor.looksAt ch) :
    togo { f with monitor := f.monitor.findClosed ch } < f.togo :=
  Nat.add_lt_add_left (Monitor.togo_findClosed looks) _

namespace Deserted

theorem nobody (h : f.Deserted) (ch : Channel) : f.hasSender ch = false := by
  refine hasSender_eq_false.mpr ⟨fun e he => ?_, fun s hs => ?_⟩
  · rw [h.dropped e he]
    cases ch <;> rfl
  · rw [h.left s hs]
    cases ch <;> rfl

theorem turn (h : f.Deserted) (hsound : f.Sound) (ht : Turn f f') :
    f'.Deserted ∧ f'.togo ≤ f.togo := by
  cases ht with
  | cloned here | begun target p here => cases h.dropped _ (List.mem_of_getElem? here)
  | dropped ch here idle =>
    refine ⟨⟨fun e' he' => ?_, h.left⟩, Nat.le_refl _⟩
    rcases List.mem_or_eq_of_mem_set he' with hold | rfl
    · exact h.dropped e' hold
    · rw [h.dropped _ (List.mem_of_getElem? here), Ends.eq_empty_without]
  | @went j s s' extra here goes =>
    have hs := List.mem_of_getElem? here
    have hidle := hsound.idle_of_nobody (h.nobody .confirms) s hs
    have hnone : extra = [] := by
      by_contra hextra
      cases (h.left s hs).symm.trans (goes.telling hextra)
    rw [hnone, tell_nil]
    refine ⟨⟨h.dropped, fun q hq => ?_⟩, Nat.le_refl _⟩
    rcases List.mem_or_eq_of_mem_set hq with hq | rfl
    · exact h.left q hq
    · refine Ends.eq_empty fun ch => ?_
      rw [← Bool.not_eq_true]
      intro hhas
      rcases goes.ends ch hhas with hold | hrun
      · rw [h.left s hs] at hold
        cases ch <;> cases hold
      · simp [hidle] at hrun
  | @heard ch x rest summary off first listening =>
    refine ⟨?_, Nat.le_of_lt (togo_heard first listening)⟩
    cases ch <;> exact ⟨h.dropped, h.left⟩
  | shut looks empty nobody =>
    exact ⟨⟨h.dropped, h.left⟩, Nat.le_of_lt (togo_findClosed looks)⟩

theorem step (h : f.Deserted) (hsound : f.Sound) (m : Move) :
    (f.step m).Deserted ∧ (f.step m).togo ≤ f.togo := by
  rw [Flow.step]
  cases hn : f.next m with
  | none => exact ⟨h, Nat.le_refl _⟩
  | some f' => exact h.turn hsound (turn_of_next hsound.postings hn)

/-- With nobody else there, a look is never in vain. -/
theorem look (h : f.Deserted) (looks : f.monitor.looksAt ch) :
    (f.step (.look ch)).togo < f.togo := by
  rw [Flow.step, next, Flow.look, if_pos looks]
  cases hwaiting : f.waiting ch with
  | nil =>
    simp only [h.nobody ch, Bool.false_eq_true, if_false]
    exact togo_findClosed looks
  | cons x rest =>
    cases hm : f.monitor with
    | listening summary off => exact togo_heard hwaiting hm
    | stopped => simp [hm, Monitor.looksAt] at looks

end Deserted

/-- The flow after the first `n` moves of an endless run. -/
def after (f : Flow) (moves : Nat → Move) : Nat → Flow
  | 0 => f
  | n + 1 => (f.after moves n).step (moves n)

/-- As long as it has not stopped, the monitor looks at a channel again and again. -/
def Attends (f : Flow) (moves : Nat → Move) : Prop :=
  ∀ n, ∃ k ≥ n, (∃ summary, (f.after moves k).monitor = .stopped summary) ∨
    ∃ ch, moves k = .look ch ∧ (f.after moves k).monitor.looksAt ch

def alternating (n : Nat) : Channel :=
  if n % 2 = 0 then .confirms else .returns

theorem alternating_succ_ne (n : Nat) : alternating (n + 1) ≠ alternating n := by
  rcases Nat.mod_two_eq_zero_or_one n with h | h
  · have hnext : (n + 1) % 2 = 1 := by omega
    simp [alternating, h, hnext]
  · have hnext : (n + 1) % 2 = 0 := by omega
    simp [alternating, h, hnext]

theorem step_look_of_passed (h : f.monitor.looksAt ch = false) : f.step (.look ch) = f := by
  rw [step, next, Flow.look, h]
  rfl

theorem attends_alternating (f : Flow) : f.Attends fun n => .look (alternating n) := by
  intro n
  generalize hnow : f.after (fun n => .look (alternating n)) n = now
  cases hlooks : now.monitor.looksAt (alternating n) with
  | true => exact ⟨n, Nat.le_refl n, .inr ⟨_, rfl, hnow ▸ hlooks⟩⟩
  | false =>
    -- a channel that is off is passed over, so the other one is next
    have hstay : f.after (fun n => .look (alternating n)) (n + 1) = now := by
      rw [after, hnow]
      exact step_look_of_passed hlooks
    refine ⟨n + 1, Nat.le_succ n, ?_⟩
    rw [hstay]
    cases hm : now.monitor with
    | stopped summary => exact .inl ⟨summary, rfl⟩
    | listening summary off =>
      rw [hm] at hlooks
      have hoff : off = some (alternating n) := by simpa [Monitor.looksAt] using hlooks
      refine .inr ⟨_, rfl, ?_⟩
      simpa [Monitor.looksAt, hoff] using (alternating_succ_ne n).symm

theorem Deserted.after (h : f.Deserted) (hsound : f.Sound) (moves : Nat → Move) (n : Nat) :
    (f.after moves n).Deserted ∧ (f.after moves n).Sound := by
  induction n with
  | zero => exact ⟨h, hsound⟩
  | succ n ih => exact ⟨(ih.1.step ih.2 (moves n)).1, ih.2.step (moves n)⟩

theorem Deserted.togo_le (h : f.Deserted) (hsound : f.Sound) (moves : Nat → Move) {n k : Nat}
    (hk : n ≤ k) :
    (f.after moves k).togo ≤ (f.after moves n).togo := by
  induction hk with
  | refl => exact Nat.le_refl _
  | @step k _ ih =>
    obtain ⟨hdeserted, hgood⟩ := h.after hsound moves k
    exact Nat.le_trans (hdeserted.step hgood (moves k)).2 ih

/-- Once every publisher was dropped and every watch has gone, a monitor that goes on looking
stops. -/
theorem stops_of_deserted (c : PublisherConfig) (past : List Move)
    (deserted : (run c past).Deserted) (attends : (run c past).Attends moves) :
    ∃ n summary, ((run c past).after moves n).monitor = .stopped summary := by
  have hsound := sound_run c past
  suffices hfrom : ∀ rank n, ((run c past).after moves n).togo = rank →
      ∃ n summary, ((run c past).after moves n).monitor = .stopped summary from hfrom _ 0 rfl
  intro rank
  induction rank using Nat.strongRecOn with
  | ind rank ih =>
    intro n hrank
    obtain ⟨k, hk, ⟨summary, hstopped⟩ | ⟨ch, hmove, hlooks⟩⟩ := attends n
    · exact ⟨k, summary, hstopped⟩
    · have hless : ((run c past).after moves (k + 1)).togo < ((run c past).after moves k).togo := by
        rw [after, hmove]
        exact (deserted.after hsound moves k).1.look hlooks
      have hle := deserted.togo_le hsound moves hk
      exact ih _ (by omega) (k + 1) rfl

theorem stops_alternating (c : PublisherConfig) (past : List Move)
    (deserted : (run c past).Deserted) : ∃ n summary,
      ((run c past).after (fun n => .look (alternating n)) n).monitor = .stopped summary :=
  stops_of_deserted c past deserted (attends_alternating _)

end Flow
end OutcomeRelay.Publisher
