import Mathlib.Data.List.Induction
import Mathlib.Data.List.Infix
import OutcomeRelay.Event.Identifier

/-!
Ids that many callers take at once. Whatever the clock shows and in whichever order the callers read
and exchange, every id is larger than all that were taken before it, and no smaller than the clock
that its call had read.
-/

namespace OutcomeRelay.Identifier

structure Running where
  millis : Int64
  call : Call
  deriving DecidableEq, Repr

structure Taken where
  caller : Nat
  millis : Int64
  id : UInt64
  deriving DecidableEq, Repr

inductive Event where
  | start (caller : Nat) (millis : Int64)
  | step (caller : Nat) (move : Move)
  deriving DecidableEq, Repr

structure Callers where
  last : UInt64 := 0
  running : Nat → Option Running := fun _ => none
  taken : List Taken := []

def Running.returns? (r : Running) (next : Call) : Option UInt64 :=
  match r.call, next with
  | .done _, _ => none
  | _, .done id => some id
  | _, _ => none

def Running.isOver (r : Running) : Bool :=
  match r.call with
  | .done _ => true
  | _ => false

namespace Callers

def set (s : Callers) (caller : Nat) (r : Running) : Callers :=
  { s with running := fun k => if k = caller then some r else s.running k }

def perform (s : Callers) : Event → Callers
  | .start caller millis =>
    if (s.running caller).all Running.isOver then
      s.set caller ⟨millis, .fresh (reading millis)⟩
    else s
  | .step caller move =>
    match s.running caller with
    | none => s
    | some r =>
      let next := r.call.step s.last move
      { s.set caller { r with call := next.2 } with
        last := next.1
        taken := s.taken ++ ((r.returns? next.2).map fun id => ⟨caller, r.millis, id⟩).toList }

def run (events : List Event) : Callers :=
  events.foldl perform {}

def idsOf (s : Callers) (caller : Nat) : List UInt64 :=
  (s.taken.filter fun t => t.caller == caller).map Taken.id

variable {s : Callers} {caller : Nat} {millis : Int64} {id now : UInt64}

theorem set_self {r : Running} (h : s.running caller = some r) : s.set caller r = s := by
  have hsame : (fun k => if k = caller then some r else s.running k) = s.running := by
    funext k
    by_cases hk : k = caller
    · rw [if_pos hk, hk, h]
    · rw [if_neg hk]
  rw [set, hsame]

def give (s : Callers) (caller : Nat) (millis : Int64) (id : UInt64) : Callers :=
  { s.set caller ⟨millis, .done id⟩ with last := id, taken := s.taken ++ [⟨caller, millis, id⟩] }

inductive Goes (s : Callers) : Callers → Prop where
  | same : Goes s s
  | began (caller : Nat) (millis : Int64) :
      Goes s (s.set caller ⟨millis, .fresh (reading millis)⟩)
  | saw {caller : Nat} {millis : Int64} {c : Call} {now : UInt64}
      (found : s.running caller = some ⟨millis, c⟩)
      (clock : c = .fresh now ∨ ∃ seen, c = .holding now seen) :
      Goes s (s.set caller ⟨millis, .holding now s.last⟩)
  | took {caller : Nat} {millis : Int64} {now : UInt64}
      (found : s.running caller = some ⟨millis, .holding now s.last⟩) :
      Goes s (s.give caller millis (candidate now s.last))

theorem goes_step {c : Call} (found : s.running caller = some ⟨millis, c⟩) (move : Move) :
    Goes s (s.perform (.step caller move)) := by
  simp only [perform, found]
  have hsame : ∀ taken : List Taken, taken = [] →
      Goes s { s.set caller ⟨millis, c⟩ with last := s.last, taken := s.taken ++ taken } := by
    rintro _ rfl
    rw [List.append_nil, set_self found]
    exact .same
  have hsaw : ∀ {now : UInt64}, (c = .fresh now ∨ ∃ seen, c = .holding now seen) →
      Goes s { s.set caller ⟨millis, .holding now s.last⟩ with
        last := s.last, taken := s.taken ++ [] } := by
    intro now hclock
    rw [List.append_nil]
    exact .saw found hclock
  cases c with
  | fresh now =>
    cases move with
    | load => exact hsaw (.inl rfl)
    | exchange spurious => exact hsame _ rfl
  | holding now seen =>
    cases move with
    | load => exact hsame _ rfl
    | exchange spurious =>
      by_cases hex : seen = s.last ∧ !spurious
      · obtain ⟨rfl, hgenuine⟩ := hex
        have htook := Goes.took found
        simpa [Call.step, hgenuine, Running.returns?, give] using htook
      · simp only [Call.step, if_neg hex]
        exact hsaw (.inr ⟨seen, rfl⟩)
  | done id => exact hsame _ rfl

theorem goes_perform (s : Callers) (e : Event) : Goes s (s.perform e) := by
  cases e with
  | start caller millis =>
    rw [perform]
    split
    · exact .began caller millis
    · exact .same
  | step caller move =>
    cases hfound : s.running caller with
    | none =>
      simp only [perform, hfound]
      exact .same
    | some r => exact goes_step hfound move

def Accords (s : Callers) (caller : Nat) (r : Running) : Prop :=
  match r.call with
  | .fresh now => now = reading r.millis
  | .holding now seen => now = reading r.millis ∧ seen ≤ s.last
  | .done id => ⟨caller, r.millis, id⟩ ∈ s.taken

structure Sound (s : Callers) : Prop where
  increasing : s.taken.Pairwise fun t t' => t.id < t'.id
  below : ∀ t ∈ s.taken, t.id ≤ s.last
  positive : ∀ t ∈ s.taken, 0 < t.id
  clock : ∀ t ∈ s.taken, reading t.millis ≤ t.id
  last : s.last = (s.taken.getLast?.map Taken.id).getD 0
  calls : ∀ caller r, s.running caller = some r → s.Accords caller r

theorem Accords.mono {s' : Callers} {r : Running} (h : s.Accords caller r) (last : s.last ≤ s'.last)
    (taken : s.taken ⊆ s'.taken) : s'.Accords caller r := by
  obtain ⟨millis, call⟩ := r
  cases call with
  | fresh now => exact h
  | holding now seen => exact ⟨h.1, UInt64.le_trans h.2 last⟩
  | done id => exact taken h

namespace Sound

theorem init : Sound {} where
  increasing := .nil
  below := by simp
  positive := by simp
  clock := by simp
  last := rfl
  calls := by simp

theorem set {r : Running} (hs : Sound s) (h : s.Accords caller r) : Sound (s.set caller r) := by
  refine ⟨hs.increasing, hs.below, hs.positive, hs.clock, hs.last, fun k r' hk => ?_⟩
  simp only [Callers.set] at hk
  split at hk
  · next hcaller =>
    subst hcaller
    obtain rfl := Option.some.inj hk
    exact h
  · exact hs.calls k r' hk

theorem give (hs : Sound s) (above : s.last < id) (clock : reading millis ≤ id) :
    Sound (s.give caller millis id) := by
  have htaken : ∀ t ∈ s.taken ++ [⟨caller, millis, id⟩],
      t ∈ s.taken ∨ t = ⟨caller, millis, id⟩ := by
    simp
  have hsub : s.taken ⊆ s.taken ++ [⟨caller, millis, id⟩] := List.subset_append_left _ _
  refine ⟨?_, fun t ht => ?_, fun t ht => ?_, fun t ht => ?_, ?_, fun k r hk => ?_⟩
  · refine List.pairwise_append.mpr ⟨hs.increasing, List.pairwise_singleton _ _, ?_⟩
    intro t ht t' ht'
    rw [List.mem_singleton.mp ht']
    exact UInt64.lt_of_le_of_lt (hs.below t ht) above
  · rcases htaken t ht with ht | rfl
    · exact UInt64.le_trans (hs.below t ht) (UInt64.le_of_lt above)
    · exact UInt64.le_refl _
  · rcases htaken t ht with ht | rfl
    · exact hs.positive t ht
    · exact UInt64.lt_of_le_of_lt UInt64.zero_le above
  · rcases htaken t ht with ht | rfl
    · exact hs.clock t ht
    · exact clock
  · simp [Callers.give]
  · simp only [Callers.give, Callers.set] at hk
    split at hk
    · next hcaller =>
      subst hcaller
      obtain rfl := Option.some.inj hk
      exact List.mem_append_right _ (.head _)
    · exact (hs.calls k r hk).mono (UInt64.le_of_lt above) hsub

theorem perform (hs : Sound s) (room : s.last.toNat + 1 < UInt64.size) (e : Event) :
    Sound (s.perform e) := by
  have hgoes := s.goes_perform e
  generalize s.perform e = s' at hgoes
  cases hgoes with
  | same => exact hs
  | began caller millis => exact hs.set rfl
  | @saw caller millis c now found clock =>
    have haccords := hs.calls caller _ found
    have hclock : now = reading millis := by
      rcases clock with rfl | ⟨seen, rfl⟩
      · exact haccords
      · exact haccords.1
    exact hs.set ⟨hclock, UInt64.le_refl _⟩
  | @took caller millis now found =>
    have hclock : now = reading millis := (hs.calls caller _ found).1
    have hid : (candidate now s.last).toNat = max now.toNat (s.last.toNat + 1) :=
      toNat_candidate room
    refine hs.give ?_ ?_
    · rw [UInt64.lt_iff_toNat_lt]
      omega
    · rw [UInt64.le_iff_toNat_le, ← hclock]
      omega

end Sound

/-- Ids as they should be. They increase in the order of the exchanges, so that none is given twice
and the ids of each caller increase; each is positive and no smaller than the clock that its call
had read. What a call returned is one of them, and no call has seen an id above the last one. -/
structure Ordered (s : Callers) : Prop where
  increasing : s.taken.Pairwise fun t t' => t.id < t'.id
  distinct : (s.taken.map Taken.id).Nodup
  own : ∀ caller, (s.idsOf caller).Pairwise (· < ·)
  positive : ∀ t ∈ s.taken, 0 < t.id
  clock : ∀ t ∈ s.taken, reading t.millis ≤ t.id ∧ t.millis.toInt ≤ t.id.toNat
  returned : ∀ caller millis id, s.running caller = some ⟨millis, .done id⟩ →
    ⟨caller, millis, id⟩ ∈ s.taken
  last : s.last = (s.taken.getLast?.map Taken.id).getD 0
  behind : ∀ caller millis now seen, s.running caller = some ⟨millis, .holding now seen⟩ →
    seen ≤ s.last

theorem Sound.ordered (hs : Sound s) : s.Ordered := by
  have hids : (s.taken.map Taken.id).Pairwise (· < ·) := List.pairwise_map.mpr hs.increasing
  refine ⟨hs.increasing, hids.imp UInt64.ne_of_lt, fun caller => ?_, hs.positive, fun t ht => ?_,
    fun caller millis id h => hs.calls caller _ h, hs.last,
    fun caller millis now seen h => (hs.calls caller _ h).2⟩
  · exact List.pairwise_map.mpr (hs.increasing.sublist List.filter_sublist)
  · have hclock := hs.clock t ht
    refine ⟨hclock, ?_⟩
    rw [UInt64.le_iff_toNat_le, toNat_reading] at hclock
    omega

theorem run_concat (events : List Event) (e : Event) :
    run (events ++ [e]) = (run events).perform e :=
  List.foldl_concat ..

/-- Whatever the clock shows and however the calls are interleaved, as long as the last id is not
the largest number, ids increase in the order in which they are taken. -/
theorem ordered_run (events : List Event)
    (room : ∀ past, past <+: events → (run past).last.toNat < UInt64.size - 1) :
    (run events).Ordered := by
  have hsound : Sound (run events) := by
    induction events using List.reverseRecOn with
    | nil => exact .init
    | append_singleton events e ih =>
      have hpast : events <+: events ++ [e] := List.prefix_append events [e]
      have hold := ih fun past h => room past (h.trans hpast)
      have hroom : (run events).last.toNat + 1 < UInt64.size := by
        have := room events hpast
        omega
      rw [run_concat]
      exact hold.perform hroom e
  exact hsound.ordered

/-- Two callers read the same last id and race; the second exchange fails, the third fails although
nothing was in its way. Then the clock goes back before the epoch. -/
def racingRun : List Event :=
  [.start 0 5, .start 1 4, .step 0 .load, .step 1 .load, .step 0 (.exchange false),
    .step 1 (.exchange false), .step 1 (.exchange true), .step 1 (.exchange false),
    .start 0 (-3), .step 0 .load, .step 0 (.exchange false)]

theorem ordered_racingRun :
    (∀ past, past <+: racingRun → (run past).last.toNat < UInt64.size - 1) ∧
    (run racingRun).Ordered ∧ (run racingRun).taken = [⟨0, 5, 5⟩, ⟨1, 4, 6⟩, ⟨0, -3, 7⟩] := by
  have hinits : ∀ past ∈ racingRun.inits, (run past).last.toNat < UInt64.size - 1 := by
    decide +kernel
  have hroom : ∀ past, past <+: racingRun → (run past).last.toNat < UInt64.size - 1 :=
    fun past h => hinits past ((List.mem_inits _ _).mpr h)
  exact ⟨hroom, ordered_run racingRun hroom, by decide +kernel⟩

end Callers
end OutcomeRelay.Identifier
