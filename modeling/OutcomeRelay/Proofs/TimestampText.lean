import OutcomeRelay.Proofs.DigitText
import OutcomeRelay.Timestamp.Reader

/-!
Timestamps as text and back. Each part is written with a fixed number of digits and ends where these
do, and the zone is UTC. A leap second is read as it was written where it ends a minute, and as the
second after it elsewhere.
-/

namespace OutcomeRelay.Timestamp

open Text

theorem isBlank_of_isDigit {c : Char} (h : c.isDigit) : isBlank c = false := by
  have hrange : 48 ≤ c.toNat ∧ c.toNat ≤ 57 := by
    simpa [Char.isDigit, UInt32.le_iff_toNat_le] using h
  have hspace : c ≠ ' ' := by
    rintro rfl
    exact absurd hrange (by decide)
  have hwide : ∀ n ∈ wideBlanks, 57 < n := by decide
  have hnarrow : wideBlanks.contains c.toNat = false := by
    refine Bool.eq_false_iff.mpr fun hmem => ?_
    have := hwide c.toNat (List.contains_iff_mem.mp hmem)
    omega
  have hlow : ¬ (9 ≤ c.toNat ∧ c.toNat ≤ 13) := by omega
  simp only [isBlank, hnarrow, Bool.or_false, Bool.or_eq_false_iff, beq_eq_false_iff_ne, ne_eq,
    hspace, not_false_eq_true, true_and]
  simpa using hlow

theorem trimStart_cons {c : Char} (h : isBlank c = false) (cs : List Char) :
    trimStart (c :: cs) = c :: cs := by
  rw [trimStart, List.dropWhile_cons, h]
  rfl

theorem number?_append (most : Nat) {ds : List Char} (rest : List Char) (hne : ds ≠ [])
    (digits : ∀ c ∈ ds, c.isDigit) (hmost : ds.length ≤ most)
    (ends : ds.length = most ∨ ∀ c ∈ rest.head?, ¬ c.isDigit) :
    number? most (ds ++ rest) = some (digitsValue ds, rest) := by
  have htaken : ((ds ++ rest).take most).takeWhile Char.isDigit = ds := by
    rw [List.take_append, List.take_of_length_le hmost,
      List.takeWhile_append_of_pos (fun c hc => digits c hc)]
    rcases ends with hlength | hend
    · rw [hlength, Nat.sub_self, List.take_zero, List.takeWhile_nil, List.append_nil]
    · cases rest with
      | nil => simp
      | cons c rest =>
        have hc := hend c rfl
        cases most - ds.length <;> simp [hc]
  rw [number?, htaken]
  simp [hne]

theorem padded_ne_nil (width n : Nat) : padded width n ≠ [] := by
  simp [padded, Nat.toDigits_ne_nil]

theorem trimStart_padded (width n : Nat) (rest : List Char) :
    trimStart (padded width n ++ rest) = padded width n ++ rest := by
  obtain ⟨c, cs, hcs⟩ := List.exists_cons_of_ne_nil (padded_ne_nil width n)
  have hc : c.isDigit := isDigit_of_mem_padded (hcs ▸ List.mem_cons_self)
  rw [hcs, List.cons_append, trimStart_cons (isBlank_of_isDigit hc)]

theorem number?_padded {width n : Nat} (hw : 0 < width) (hn : n < Nat.pow 10 width)
    (rest : List Char) : number? width (padded width n ++ rest) = some (n, rest) := by
  have hlength := length_padded hw hn
  have hnumber := number?_append width rest (padded_ne_nil width n)
    (fun _ => isDigit_of_mem_padded) (Nat.le_of_eq hlength) (.inl hlength)
  rwa [digitsValue_padded] at hnumber

theorem part?_padded {n : Nat} (hn : n < 100) (rest : List Char) :
    part? (padded 2 n ++ rest) = some (n, rest) := by
  rw [part?, trimStart_padded, number?_padded (by decide) hn]

theorem mark?_cons {c : Char} (h : isBlank c = false) (rest : List Char) :
    mark? c (c :: rest) = some rest := by
  rw [mark?, trimStart_cons h]
  simp

theorem number?_signed (n : Nat) (rest : List Char) :
    number? (padded 4 n ++ '-' :: rest).length (padded 4 n ++ '-' :: rest) =
      some (n, '-' :: rest) := by
  have hnumber := number?_append (padded 4 n ++ '-' :: rest).length ('-' :: rest)
    (padded_ne_nil 4 n)
    (fun _ => isDigit_of_mem_padded) (by simp) (.inr fun c hc => by
      obtain rfl : '-' = c := by simpa using hc
      decide)
  rwa [digitsValue_padded] at hnumber

theorem year?_digit {c : Char} (h : c.isDigit) (cs : List Char) :
    year? (c :: cs) = (number? 4 (c :: cs)).map fun r => ((r.1 : Int), r.2) := by
  have hminus : c ≠ '-' := by
    rintro rfl
    exact absurd h (by decide)
  have hplus : c ≠ '+' := by
    rintro rfl
    exact absurd h (by decide)
  rw [year?, trimStart_cons (isBlank_of_isDigit h)]
  split
  · next heq => exact absurd (List.cons.inj heq).1 hminus
  · next heq => exact absurd (List.cons.inj heq).1 hplus
  · rfl

theorem year?_yearChars (y : Int) (rest : List Char) :
    year? (yearChars y ++ '-' :: rest) = some (y, '-' :: rest) := by
  unfold yearChars
  split
  · next hplain =>
    obtain ⟨c, cs, hcs⟩ := List.exists_cons_of_ne_nil (padded_ne_nil 4 y.toNat)
    have hc : c.isDigit := isDigit_of_mem_padded (hcs ▸ List.mem_cons_self)
    have hfour : y.toNat < 10000 := by omega
    have hnumber := @number?_padded 4 y.toNat (by decide) hfour ('-' :: rest)
    rw [hcs, List.cons_append] at hnumber ⊢
    rw [year?_digit hc, hnumber, Option.map_some, Int.toNat_of_nonneg hplain.1]
  · next houtside =>
    split
    · next hneg =>
      have habs : -((y.natAbs : Nat) : Int) = y := by omega
      rw [List.cons_append, year?, trimStart_cons (by decide)]
      simp only [number?_signed, Option.map_some, habs]
    · next hpos =>
      have habs : ((y.natAbs : Nat) : Int) = y := by omega
      rw [List.cons_append, year?, trimStart_cons (by decide)]
      simp only [number?_signed, Option.map_some, habs]

theorem fraction?_padded {width n unit : Nat} (hw : 0 < width) (hwidth : width ≤ 9)
    (hn : n < Nat.pow 10 width) (hunit : Nat.pow 10 (9 - width) = unit) :
    fraction? ('.' :: padded width n ++ ['Z']) = some (n * unit, ['Z']) := by
  have hlength := length_padded hw hn
  have htaken : (padded width n ++ ['Z']).takeWhile Char.isDigit = padded width n := by
    rw [List.takeWhile_append_of_pos fun _ => isDigit_of_mem_padded]
    simp
  have hkept : (padded width n).take 9 = padded width n := List.take_of_length_le (by omega)
  -- zeros make nine digits of it
  have hvalue : digitsValue (padded width n ++ List.replicate (9 - width) '0') = n * unit := by
    rw [digitsValue_eq, Nat.ofDigitChars_append, ← digitsValue_eq, digitsValue_padded,
      Nat.ofDigitChars_replicate_zero, Nat.mul_comm, ← hunit]
    rfl
  rw [List.cons_append, fraction?]
  simp only [htaken, hkept, hlength, hvalue, List.isEmpty_iff, padded_ne_nil, if_false]
  rw [List.drop_left' hlength]

theorem fraction?_fractionChars {nano : Nat} (h : nano < 1000000000) :
    fraction? (fractionChars nano ++ ['Z']) = some (nano, ['Z']) := by
  unfold fractionChars
  split
  · next hzero =>
    rw [hzero]
    rfl
  split
  · next hmilli =>
    have hthree : nano / 1000000 < 1000 := by omega
    rw [@fraction?_padded 3 _ 1000000 (by decide) (by decide) hthree rfl,
      Nat.div_mul_cancel (Nat.dvd_of_mod_eq_zero hmilli)]
  split
  · next hmicro =>
    have hsix : nano / 1000 < 1000000 := by omega
    rw [@fraction?_padded 6 _ 1000 (by decide) (by decide) hsix rfl,
      Nat.div_mul_cancel (Nat.dvd_of_mod_eq_zero hmicro)]
  · rw [@fraction?_padded 9 _ 1 (by decide) (by decide) h rfl, Nat.mul_one]

theorem ofLocal_zero {t : Timestamp} (hhour : t.hour < 24) (hminute : t.minute < 60) :
    t.ofLocal 0 = t := by
  have hpast : ¬ ((t.hour : Int) * 60 + t.minute - 0 < 0) := by omega
  have htomorrow : ¬ (1440 ≤ (t.hour : Int) * 60 + t.minute - 0) := by omega
  have hday : (((t.hour : Int) * 60 + t.minute - 0) % 1440).toNat = t.hour * 60 + t.minute := by
    omega
  have hhours : (t.hour * 60 + t.minute) / 60 = t.hour := by omega
  have hminutes : (t.hour * 60 + t.minute) % 60 = t.minute := by omega
  simp only [ofLocal, hpast, htomorrow, if_false, hday, hhours, hminutes]

theorem date?_parts (year : Int) {month day : Nat} (hmonth : month < 100) (hday : day < 100)
    (rest : List Char) :
    date? (yearChars year ++ '-' :: (padded 2 month ++ '-' :: (padded 2 day ++ rest))) =
      some (⟨year, month, day⟩, rest) := by
  have hdash : isBlank '-' = false := by decide
  simp only [date?, year?_yearChars, bind, Option.bind, mark?_cons hdash, part?_padded hmonth,
    part?_padded hday]
  rfl

theorem time?_parts (date : Date) {hour minute second nano : Nat} (hhour : hour < 100)
    (hminute : minute < 100) (hsecond : second ≤ 60) (hnano : nano < 1000000000) :
    time? date (padded 2 hour ++ ':' :: (padded 2 minute ++ ':' ::
      (padded 2 second ++ (fractionChars nano ++ ['Z'])))) =
    some (if second = 60 then ⟨date, hour, minute, 59, 1000000000 + nano⟩
      else ⟨date, hour, minute, second, nano⟩, ['Z']) := by
  have hcolon : isBlank ':' = false := by decide
  have hsecond' : second < 100 := by omega
  simp only [time?, bind, Option.bind, mark?_cons hcolon, part?_padded hhour, part?_padded hminute,
    part?_padded hsecond', fraction?_fractionChars hnano]
  by_cases hlast : second = 60
  · subst hlast
    rfl
  · have hbefore : second < 60 := by omega
    simp only [hlast, hbefore, if_true, if_false]
    rfl

theorem ofChars?_parts {year : Int} {month day hour minute second nano : Nat} (hmonth : month < 100)
    (hday : day < 100) (hhour : hour < 24) (hminute : minute < 60) (hsecond : second ≤ 60)
    (hnano : nano < 1000000000) {seen : Timestamp}
    (hseen : (if second = 60 then ⟨⟨year, month, day⟩, hour, minute, 59, 1000000000 + nano⟩
      else ⟨⟨year, month, day⟩, hour, minute, second, nano⟩) = seen) (hvalid : seen.Valid) :
    ofChars? (yearChars year ++ '-' :: padded 2 month ++ '-' :: padded 2 day ++ 'T' :: padded 2 hour
      ++ ':' :: padded 2 minute ++ ':' :: padded 2 second ++ fractionChars nano ++ ['Z']) =
    some seen := by
  have hzone : trimStart ['Z'] = ['Z'] := trimStart_cons (by decide) []
  have hlocal : seen.ofLocal 0 = seen := ofLocal_zero hvalid.2.1 hvalid.2.2.1
  simp only [List.append_assoc, List.cons_append]
  rw [ofChars?, date?_parts year hmonth hday]
  simp only [bind, Option.bind, parting?]
  rw [time?_parts _ (by omega) (by omega) hsecond hnano, hseen]
  simp only [hzone, zone?, hlocal]
  exact if_pos ⟨rfl, by decide, hvalid, hvalid⟩

/-- The ranges of the fields of an instant, whichever second a leap second follows. -/
def InRange (t : Timestamp) : Prop :=
  t.date.Valid ∧ t.hour < 24 ∧ t.minute < 60 ∧ t.second < 60 ∧ t.nano < 2000000000

instance (t : Timestamp) : Decidable t.InRange :=
  inferInstanceAs (Decidable (_ ∧ _ ∧ _ ∧ _ ∧ _))

/-- The instant that a text shows: within a minute, a leap second is the start of the next one. -/
def shown (t : Timestamp) : Timestamp :=
  if 1000000000 ≤ t.nano ∧ t.second < 59 then
    { t with second := t.second + 1, nano := t.nano - 1000000000 }
  else t

def LeapsWithin (t : Timestamp) : Prop :=
  1000000000 ≤ t.nano ∧ t.second ≠ 59

theorem InRange.shown_of_leapsWithin {t : Timestamp} (h : t.InRange) (leaps : t.LeapsWithin) :
    t.shown = { t with second := t.second + 1, nano := t.nano - 1000000000 } := by
  obtain ⟨-, -, -, hsecond, -⟩ := h
  have hwithin : t.second < 59 := by
    have := leaps.2
    omega
  exact if_pos ⟨leaps.1, hwithin⟩

theorem shown_of_not_leapsWithin {t : Timestamp} (h : ¬ t.LeapsWithin) : t.shown = t :=
  if_neg fun hleap => h ⟨hleap.1, by omega⟩

theorem InRange.valid_shown {t : Timestamp} (h : t.InRange) : t.shown.Valid := by
  obtain ⟨hdate, hhour, hminute, hsecond, hnano⟩ := h
  unfold shown
  split
  · exact ⟨hdate, hhour, hminute, by dsimp only; omega, by dsimp only; omega, by dsimp only; omega⟩
  · exact ⟨hdate, hhour, hminute, hsecond, hnano, by omega⟩

theorem ofText?_text {t : Timestamp} (h : t.InRange) : ofText? t.text = some t.shown := by
  obtain ⟨⟨-, -, hmonth, hmonth', hday, hday'⟩, hhour, hminute, hsecond, hnano⟩ := id h
  have hdays : daysInMonth t.date.year t.date.month ≤ 31 := by
    unfold daysInMonth
    split_ifs <;> omega
  rw [ofText?, text, String.toList_ofList, chars]
  by_cases hlong : 1000000000 ≤ t.nano
  · simp only [hlong, if_true]
    refine ofChars?_parts (by omega) (by omega) hhour hminute (by omega) (by omega) ?_ h.valid_shown
    by_cases hlast : t.second + 1 = 60
    · have hsecond' : 59 = t.second := by omega
      rw [if_pos hlast, Nat.add_sub_cancel' hlong, hsecond', shown, if_neg (by omega)]
    · rw [if_neg hlast, shown, if_pos ⟨hlong, by omega⟩]
  · simp only [hlong, if_false]
    refine ofChars?_parts (by omega) (by omega) hhour hminute (by omega) (by omega) ?_ h.valid_shown
    rw [if_neg (by omega), shown, if_neg fun hleap => hlong hleap.1]

end OutcomeRelay.Timestamp
