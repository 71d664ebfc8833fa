import Mathlib.Logic.Function.Basic
import OutcomeRelay.Topology.Pattern

/-!
Binding keys without wildcards. Such a key is a pattern that matches itself and no other key.
-/

namespace OutcomeRelay.Pattern

def Literal (key : String) : Prop :=
  ∀ w ∈ words key.toList, w ≠ many ∧ w ≠ one

instance (key : String) : Decidable (Literal key) :=
  inferInstanceAs (Decidable (∀ w ∈ words key.toList, _))

theorem words_eq_splitOn (cs : List Char) : words cs = cs.splitOn '.' := by
  induction cs with
  | nil => rfl
  | cons c cs ih =>
    have hne := words_ne_nil cs
    rw [List.splitOn, List.splitOnP_cons_eq_if_modifyHead, ← List.splitOn, ← ih, words]
    by_cases hc : c = '.'
    · simp [hc]
    · cases hw : words cs with
      | nil => exact absurd hw hne
      | cons w ws => simp [hc]

theorem words_injective : Function.Injective words := by
  intro cs ds h
  rw [words_eq_splitOn, words_eq_splitOn] at h
  calc cs = ['.'].intercalate (cs.splitOn '.') := (List.intercalate_splitOn '.').symm
    _ = ['.'].intercalate (ds.splitOn '.') := by rw [h]
    _ = ds := List.intercalate_splitOn '.'

theorem matchWords_literal {ps : List Word} (h : ∀ w ∈ ps, w ≠ many ∧ w ≠ one) (ks : List Word) :
    matchWords ps ks = decide (ps = ks) := by
  induction ps generalizing ks with
  | nil => cases ks <;> rfl
  | cons p ps ih =>
    obtain ⟨hmany, hone⟩ := h p List.mem_cons_self
    cases ks with
    | nil =>
      rw [matchWords.eq_def]
      simp [hmany]
    | cons k ks =>
      have hrest := ih (fun w hw => h w (List.mem_cons_of_mem _ hw)) ks
      rw [matchWords.eq_def]
      simp [hmany, hone, hrest]

theorem matchesKey_literal {p : String} (h : Literal p) (k : String) :
    matchesKey p k = decide (p = k) := by
  have hwords : words p.toList = words k.toList ↔ p = k :=
    words_injective.eq_iff.trans String.toList_inj
  rw [matchesKey, matchWords_literal h]
  exact decide_eq_decide.mpr hwords

end OutcomeRelay.Pattern
