import Mathlib.Data.List.Infix
import OutcomeRelay.Event.Masking

/-!
What masking shows. Of the digits of a text only the last few can be seen, all else is stars, and
which they are depends on the digits and stars of the text alone: on how many there are, and on the
last four of them. Masking a masked text changes nothing.
-/

namespace OutcomeRelay.Masking

def Masked (s : String) : Prop :=
  mask s = s

instance (s : String) : Decidable (Masked s) :=
  inferInstanceAs (Decidable (_ = _))

theorem maskKept_of_stars {n : Nat} {last : List Char} (h : last.length ≤ 4) :
    maskKept (List.replicate n '*' ++ last) = List.replicate n '*' ++ last := by
  have hle : n + last.length - 4 ≤ n := by omega
  have hstars : List.replicate (n + last.length - 4) '*' ++
      List.replicate (n - (n + last.length - 4)) '*' = List.replicate n '*' := by
    rw [List.replicate_append_replicate, Nat.add_sub_cancel' hle]
  rw [maskKept, List.length_append, List.length_replicate,
    List.drop_append_of_le_length (by rwa [List.length_replicate]), List.drop_replicate,
    ← List.append_assoc, hstars]

theorem masked_iff {s : String} : Masked s ↔ ∃ n last, s.toList = List.replicate n '*' ++ last ∧
    last.length ≤ 4 ∧ ∀ c ∈ last, isKept c = true := by
  constructor
  · intro h
    have hchars : s.toList = maskChars s.toList := by
      conv_lhs => rw [← h, mask, String.toList_ofList]
    refine ⟨_, _, hchars, ?_, fun c hc => ?_⟩
    · rw [List.length_drop]
      omega
    · exact (List.mem_filter.mp (List.mem_of_mem_drop hc)).2
  · rintro ⟨n, last, hchars, hlength, hkept⟩
    have hall : ∀ c ∈ s.toList, isKept c = true := by
      intro c hc
      rw [hchars] at hc
      rcases List.mem_append.mp hc with hc | hc
      · rw [List.eq_of_mem_replicate hc]
        rfl
      · exact hkept c hc
    rw [Masked, mask, maskChars, List.filter_eq_self.mpr hall, hchars, maskKept_of_stars hlength,
      ← hchars, String.ofList_toList]

theorem masked_mask (s : String) : Masked (mask s) := by
  refine masked_iff.mpr ⟨_, _, String.toList_ofList, ?_, fun c hc => ?_⟩
  · rw [List.length_drop]
    omega
  · exact (List.mem_filter.mp (List.mem_of_mem_drop hc)).2

def digits (s : String) : List Char :=
  s.toList.filter Char.isDigit

def kept (s : String) : List Char :=
  s.toList.filter isKept

def lastFour (cs : List Char) : List Char :=
  cs.drop (cs.length - 4)

theorem length_lastFour_le (cs : List Char) : (lastFour cs).length ≤ 4 := by
  rw [lastFour, List.length_drop]
  omega

theorem lastFour_suffix (cs : List Char) : lastFour cs <:+ cs :=
  List.drop_suffix _ _

theorem toList_mask (s : String) :
    (mask s).toList = List.replicate ((kept s).length - 4) '*' ++ lastFour (kept s) := by
  rw [mask, String.toList_ofList, maskChars, maskKept, kept, lastFour]

theorem digits_kept (s : String) : (kept s).filter Char.isDigit = digits s := by
  have hdigit : ∀ c : Char, (c.isDigit && isKept c) = c.isDigit := by
    intro c
    cases h : c.isDigit <;> simp [isKept, h]
  rw [kept, List.filter_filter, digits]
  exact List.filter_congr fun c _ => hdigit c

theorem digits_mask (s : String) : digits (mask s) = (lastFour (kept s)).filter Char.isDigit := by
  have hstars : ∀ n, (List.replicate n '*').filter Char.isDigit = [] := by
    intro n
    refine List.filter_eq_nil_iff.mpr fun c hc => ?_
    rw [List.eq_of_mem_replicate hc]
    decide
  rw [digits, toList_mask, List.filter_append, hstars, List.nil_append]

theorem mask_eq_mask_iff {s t : String} :
    mask s = mask t ↔
      (kept s).length = (kept t).length ∧ lastFour (kept s) = lastFour (kept t) := by
  constructor
  · intro h
    have hchars : maskKept (kept s) = maskKept (kept t) := String.ofList_injective h
    have hlength : (kept s).length = (kept t).length := by
      have hlengths := congrArg List.length hchars
      rwa [length_maskKept, length_maskKept] at hlengths
    refine ⟨hlength, ?_⟩
    rw [maskKept, maskKept, hlength] at hchars
    have hlast := List.append_cancel_left hchars
    rwa [lastFour, lastFour, hlength]
  · rintro ⟨hlength, hlast⟩
    have hchars : (mask s).toList = (mask t).toList := by
      rw [toList_mask, toList_mask, hlength, hlast]
    exact String.toList_injective hchars

/-- A masked text shows at most four digits, the last ones, and stars; it tells how many digits and
stars there were and the last four of these, and nothing else; and masking it again leaves it as it
is. -/
theorem shows_last_digits_only (s : String) :
    (digits (mask s)).length ≤ 4 ∧ digits (mask s) <:+ digits s ∧
    (∀ c ∈ (mask s).toList, c.isDigit = true ∨ c = '*') ∧
    (∀ t, mask s = mask t ↔
      (kept s).length = (kept t).length ∧ lastFour (kept s) = lastFour (kept t)) ∧
    mask (mask s) = mask s := by
  refine ⟨?_, ?_, fun c hc => ?_, fun t => mask_eq_mask_iff, masked_mask s⟩
  · rw [digits_mask]
    exact (List.length_filter_le _ _).trans (length_lastFour_le _)
  · rw [digits_mask, ← digits_kept]
    exact (lastFour_suffix _).filter _
  · rw [toList_mask] at hc
    rcases List.mem_append.mp hc with hstar | hlast
    · exact .inr (List.eq_of_mem_replicate hstar)
    · have hkept := (List.mem_filter.mp ((lastFour_suffix _).subset hlast)).2
      simpa [isKept] using hkept

example : mask "12*3 4-5é6" = "***3456" ∧ digits (mask "1*-*2*") = ['2'] := by decide

end OutcomeRelay.Masking
