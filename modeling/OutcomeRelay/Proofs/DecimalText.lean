import OutcomeRelay.Decimal.Reader
import OutcomeRelay.Proofs.DigitText

/-!
Decimal amounts as text and back. The digits of a mantissa are read one by one, the point among them
only starts the count of places, and so the scale comes back with the number. Only the sign of a
zero is lost.
-/

namespace OutcomeRelay.Decimal

open Text

def unsignedZero (d : Decimal) : Decimal :=
  { d with negative := d.negative && d.mantissa != 0 }

theorem unsignedZero_of_isPositive {d : Decimal} (h : d.isPositive) : d.unsignedZero = d := by
  obtain ⟨negative, mantissa, scale, hm, hs⟩ := d
  simp only [isPositive, Bool.and_eq_true, Bool.not_eq_true'] at h
  simp [unsignedZero, h.1]

theorem ofParts?_eq (d : Decimal) :
    ofParts? d.negative d.mantissa d.scale = some d.unsignedZero := by
  rw [ofParts?, withSign?, dif_pos ⟨d.mantissa_lt, d.scale_le⟩]
  rfl

theorem le_ofDigitChars (cs : List Char) (m : Nat) : m ≤ Nat.ofDigitChars 10 cs m := by
  rw [Nat.ofDigitChars_eq_ofDigitChars_zero]
  exact Nat.le_trans (Nat.le_mul_of_pos_left m (Nat.pow_pos (by decide))) (Nat.le_add_right _ _)

theorem readDigits_run (negative point : Bool) {cs : List Char} (h : ∀ c ∈ cs, c.isDigit)
    (m s : Nat) (seen : Bool) (fits : Nat.ofDigitChars 10 cs m < mantissaLimit)
    (places : point → s + cs.length ≤ 28) (rest : List Char) :
    readDigits negative ⟨m, s, point, seen⟩ (cs ++ rest) =
      readDigits negative ⟨Nat.ofDigitChars 10 cs m, if point then s + cs.length else s, point,
        seen || !cs.isEmpty⟩ rest := by
  induction cs generalizing m s seen with
  | nil => simp
  | cons c cs ih =>
    have hc : c.isDigit := h c List.mem_cons_self
    have hroom : (point && s == 28) = false := by
      cases point with
      | false => rfl
      | true =>
        have := places rfl
        simp only [List.length_cons] at this
        simp only [Bool.true_and, beq_eq_false_iff_ne]
        omega
    have hvalue : c.toNat - '0'.toNat = digitValue c := rfl
    rw [Nat.ofDigitChars_cons, hvalue] at fits ⊢
    have hnext : 10 * m + digitValue c < mantissaLimit :=
      Nat.lt_of_le_of_lt (le_ofDigitChars cs _) fits
    rw [List.cons_append, readDigits, hroom, if_neg (by simp), if_pos hc]
    dsimp only
    rw [if_pos hnext, ih (fun d hd => h d (List.mem_cons_of_mem _ hd)) _ _ _ fits]
    · have hcount : s + 1 + cs.length = s + (c :: cs).length := by
        rw [List.length_cons]
        omega
      cases point with
      | false => simp
      | true => simp [hcount]
    · intro hpoint
      have := places hpoint
      simp only [List.length_cons] at this
      rw [if_pos hpoint]
      omega

theorem digits_split (m scale : Nat) : ∃ whole fraction : List Char, whole ≠ [] ∧
    (∀ c ∈ whole, c.isDigit) ∧ (∀ c ∈ fraction, c.isDigit) ∧ fraction.length = scale ∧
    Nat.ofDigitChars 10 fraction (Nat.ofDigitChars 10 whole 0) = m ∧
    digits m scale = if scale = 0 then whole else whole ++ '.' :: fraction := by
  by_cases hscale : scale = 0
  · refine ⟨Nat.toDigits 10 m, [], Nat.toDigits_ne_nil, fun _ => isDigit_of_mem_toDigits, by simp,
      hscale.symm, ?_, ?_⟩
    · rw [Nat.ofDigitChars_nil, Nat.ofDigitChars_ten_toDigits]
    · rw [digits, if_pos hscale, if_pos hscale]
  · generalize hds : List.replicate (scale + 1 - (Nat.toDigits 10 m).length) '0' ++
      Nat.toDigits 10 m = ds
    have hlong : scale + 1 ≤ ds.length := by
      rw [← hds, List.length_append, List.length_replicate]
      omega
    have hall : ∀ c ∈ ds, c.isDigit := fun c hc => by
      rw [← hds] at hc
      exact isDigit_of_mem_padded hc
    refine ⟨ds.take (ds.length - scale), ds.drop (ds.length - scale), ?_,
      fun c hc => hall c (List.mem_of_mem_take hc), fun c hc => hall c (List.mem_of_mem_drop hc),
      ?_, ?_, ?_⟩
    · rw [ne_eq, ← List.length_eq_zero_iff, List.length_take]
      omega
    · rw [List.length_drop]
      omega
    · rw [← Nat.ofDigitChars_append, List.take_append_drop, ← digitsValue_eq, ← hds,
        digitsValue_replicate_append, digitsValue_toDigits]
    · rw [digits, if_neg hscale, if_neg hscale, ← hds]

theorem digits_ne_cons {m scale : Nat} {c : Char} {cs : List Char} (hc : ¬ c.isDigit) :
    digits m scale ≠ c :: cs := by
  obtain ⟨whole, fraction, hne, hwhole, -, -, -, hdigits⟩ := digits_split m scale
  obtain ⟨d, ds, rfl⟩ := List.exists_cons_of_ne_nil hne
  have hd : d.isDigit := hwhole d List.mem_cons_self
  intro h
  rw [hdigits] at h
  have hcd : d = c := by
    split at h
    · exact (List.cons.inj h).1
    · exact (List.cons.inj h).1
  exact hc (hcd ▸ hd)

theorem readDigits_digits (negative : Bool) {m scale : Nat} (hm : m < mantissaLimit)
    (hs : scale ≤ 28) :
    readDigits negative start (digits m scale) = ofParts? negative m scale := by
  obtain ⟨whole, fraction, hne, hwhole, hfraction, hlength, hvalue, hdigits⟩ := digits_split m scale
  have hseen : (false || !whole.isEmpty) = true := by simp [hne]
  have hfits : Nat.ofDigitChars 10 whole 0 < mantissaLimit :=
    Nat.lt_of_le_of_lt (le_ofDigitChars fraction _) (hvalue.symm ▸ hm)
  have hread := readDigits_run negative false hwhole 0 0 false hfits (by simp)
  rw [hdigits]
  split
  · next hzero =>
    obtain rfl : fraction = [] := List.length_eq_zero_iff.mp (hlength.trans hzero)
    have hend := hread []
    rw [List.append_nil, hseen] at hend
    rw [start, hend, readDigits, hzero]
    rw [Nat.ofDigitChars_nil] at hvalue
    simp [hvalue]
  · have hpoint := hread ('.' :: fraction)
    have hrest := readDigits_run negative true hfraction (Nat.ofDigitChars 10 whole 0) 0 true
      (hvalue.symm ▸ hm) (fun _ => by omega) []
    rw [List.append_nil, hvalue, hlength] at hrest
    rw [start, hpoint, hseen, readDigits]
    simpa [readDigits] using hrest

theorem ofText?_text (d : Decimal) : ofText? d.text = some d.unsignedZero := by
  have hread := readDigits_digits d.negative d.mantissa_lt d.scale_le
  have hplain : ofPlain? d.chars = some d.unsignedZero := by
    rw [ofParts?_eq] at hread
    unfold chars
    cases hneg : d.negative with
    | true =>
      rw [hneg] at hread
      exact hread
    | false =>
      rw [hneg] at hread
      rw [if_neg (by simp), ofPlain?, hread]
      · exact fun cs => digits_ne_cons (by decide)
      · exact fun cs => digits_ne_cons (by decide)
  rw [ofText?, text, String.toList_ofList, ofChars?, hplain, Option.some_or]

end OutcomeRelay.Decimal
