import OutcomeRelay.Amqp.Field

/-!
The number of deaths of a message from a remote broker. The counts are added up one after another in
64 bits with a sign. As long as none of the sums leaves the 64 bits, the number that is told is the
sum of the counts. Past that a program that checks its sums panics; one that does not tells the sum
up to a multiple of 2^64, so that a list of forged counts can be told as any number.
-/

namespace OutcomeRelay.Amqp

def deaths? (headers : Option FieldTable) : Option (List FieldValue) :=
  match headers.bind fun h => h.lookup "x-death" with
  | some (.array deaths) => some deaths
  | _ => none

/-- What an entry adds: its count, an integer of any width, or nothing. -/
def countOf : FieldValue → Int
  | .table members =>
    match members.lookup "count" with
    | some (.int8 n) => n.toInt
    | some (.int16 n) => n.toInt
    | some (.int32 n) => n.toInt
    | some (.int64 n) => n.toInt
    | some (.uint8 n) => n.toNat
    | some (.uint16 n) => n.toNat
    | some (.uint32 n) => n.toNat
    | _ => 0
  | _ => 0

def deathSum : List FieldValue → Int
  | [] => 0
  | d :: ds => countOf d + deathSum ds

def CountsTo (headers : Option FieldTable) (n : Nat) : Prop :=
  ∃ deaths, deaths? headers = some deaths ∧ deathSum deaths = n ∧ n < UInt32.size

/-- The number that is told is the one that the counts add up to, and there is always an answer. -/
structure Exact (o : Overflow) (headers : Option FieldTable) : Prop where
  answers : ∀ m, deathCount o headers ≠ .error m
  counts : ∀ n, deathCount o headers = .ok (some n) ↔ CountsTo headers n

def Fits (z : Int) : Prop :=
  Int64.minValue.toInt ≤ z ∧ z ≤ Int64.maxValue.toInt

/-- The counts up to one of the death entries add up to a number that does not fit. -/
def Overflows (headers : Option FieldTable) : Prop :=
  ∃ deaths, deaths? headers = some deaths ∧ ∃ k, ¬ Fits (deathSum (deaths.take k))

def totalFrom (o : Overflow) (z : Int) (deaths : List FieldValue) : Except String Int :=
  (deaths.filterMap FieldValue.count?).foldlM o.add z

section Sums

variable {o : Overflow} {z : Int} {d : FieldValue} {deaths : List FieldValue}

theorem fits_iff : Fits z ↔ -9223372036854775808 ≤ z ∧ z ≤ 9223372036854775807 := by
  have hmin : Int64.minValue.toInt = -9223372036854775808 := by decide
  have hmax : Int64.maxValue.toInt = 9223372036854775807 := by decide
  rw [Fits, hmin, hmax]

theorem Overflow.add_of_fits {n : Int} (h : Fits (z + n)) : o.add z n = .ok (z + n) :=
  if_pos h

theorem Overflow.add_panics {n : Int} (h : ¬ Fits (z + n)) : panics.add z n = .error text :=
  if_neg h

theorem Overflow.add_wraps (n : Int) : wraps.add z n = .ok ((z + n).bmod UInt64.size) := by
  by_cases h : Fits (z + n)
  · rw [add_of_fits h]
    rw [fits_iff] at h
    rw [Int.bmod_eq_of_le (by simp only [UInt64.size]; omega) (by simp only [UInt64.size]; omega)]
  · exact if_neg h

theorem fits_bmod (z : Int) : Fits (z.bmod UInt64.size) := by
  have hle := Int.le_bmod (x := z) (m := UInt64.size) (by decide)
  have hlt := Int.bmod_lt (x := z) (m := UInt64.size) (by decide)
  rw [fits_iff]
  simp only [UInt64.size] at hle hlt ⊢
  omega

theorem getD_count? (d : FieldValue) : d.count?.getD 0 = countOf d := by
  cases d with
  | table members =>
    rw [FieldValue.count?, countOf]
    cases members.lookup "count" with
    | none => rfl
    | some v => cases v <;> rfl
  | _ => rfl

theorem totalFrom_cons (hz : Fits z) :
    totalFrom o z (d :: deaths) =
      (o.add z (countOf d)).bind fun total => totalFrom o total deaths := by
  rw [← getD_count?]
  unfold totalFrom
  cases h : d.count? with
  | none =>
    rw [List.filterMap_cons_none h, Option.getD_none, Overflow.add_of_fits (by rwa [Int.add_zero]),
      Int.add_zero]
    rfl
  | some n =>
    rw [List.filterMap_cons_some h, List.foldlM_cons]
    rfl

theorem totalFrom_of_fits (h : ∀ k, Fits (z + deathSum (deaths.take k))) :
    totalFrom o z deaths = .ok (z + deathSum deaths) := by
  induction deaths generalizing z with
  | nil => rw [deathSum, Int.add_zero]; rfl
  | cons d ds ih =>
    have hz : Fits z := by simpa [deathSum] using h 0
    have hnext : ∀ k, Fits (z + countOf d + deathSum (ds.take k)) := by
      intro k
      rw [Int.add_assoc]
      exact h (k + 1)
    have hsum : Fits (z + countOf d) := by simpa [deathSum] using hnext 0
    rw [totalFrom_cons hz, Overflow.add_of_fits hsum, Except.bind, ih hnext, deathSum,
      Int.add_assoc]

theorem totalFrom_of_overflow (hz : Fits z) (h : ∃ k, ¬ Fits (z + deathSum (deaths.take k))) :
    totalFrom .panics z deaths = .error Overflow.text := by
  induction deaths generalizing z with
  | nil =>
    obtain ⟨k, hk⟩ := h
    rw [List.take_nil, deathSum, Int.add_zero] at hk
    exact absurd hz hk
  | cons d ds ih =>
    rw [totalFrom_cons hz]
    by_cases hsum : Fits (z + countOf d)
    · obtain ⟨k, hk⟩ := h
      cases k with
      | zero =>
        rw [List.take_zero, deathSum, Int.add_zero] at hk
        exact absurd hz hk
      | succ k =>
        rw [List.take_succ_cons, deathSum, ← Int.add_assoc] at hk
        rw [Overflow.add_of_fits hsum]
        exact ih hsum ⟨k, hk⟩
    · rw [Overflow.add_panics hsum]
      rfl

theorem totalFrom_wraps (hz : Fits z) :
    totalFrom .wraps z deaths = .ok ((z + deathSum deaths).bmod UInt64.size) := by
  induction deaths generalizing z with
  | nil =>
    rw [← Overflow.add_wraps, Overflow.add_of_fits (by rwa [deathSum, Int.add_zero]), deathSum,
      Int.add_zero]
    rfl
  | cons d ds ih =>
    rw [totalFrom_cons hz, Overflow.add_wraps, Except.bind, ih (fits_bmod _), Int.bmod_add_bmod,
      deathSum, Int.add_assoc]

end Sums

theorem fits_zero : Fits 0 := by
  rw [fits_iff]
  omega

section Counts

variable {o : Overflow} {headers : Option FieldTable} {deaths : List FieldValue}

theorem deathCount_eq : deathCount o headers = match deaths? headers with
    | some deaths => (totalFrom o 0 deaths).map narrow?
    | none => .ok none := by
  unfold deathCount deathHeader deaths?
  generalize (headers.bind fun h => h.lookup "x-death") = found
  rcases found with _ | value
  · rfl
  · cases value <;> rfl

theorem deathCount_of_unlisted (h : deaths? headers = none) : deathCount o headers = .ok none := by
  rw [deathCount_eq, h]

theorem deathCount_of_listed (h : deaths? headers = some deaths) :
    deathCount o headers = (totalFrom o 0 deaths).map narrow? := by
  rw [deathCount_eq, h]

theorem narrow?_eq_some_iff (z : Int) (n : Nat) :
    narrow? z = some n ↔ z = n ∧ n < UInt32.size := by
  unfold narrow?
  split
  · rw [Option.some.injEq]
    omega
  · next hrange =>
    constructor
    · nofun
    · rintro ⟨rfl, hlt⟩
      omega

theorem overflows_iff (h : deaths? headers = some deaths) :
    Overflows headers ↔ ∃ k, ¬ Fits (0 + deathSum (deaths.take k)) := by
  simp [Overflows, h]

theorem countsTo_iff (h : deaths? headers = some deaths) (n : Nat) :
    CountsTo headers n ↔ deathSum deaths = n ∧ n < UInt32.size := by
  simp [CountsTo, h]

theorem totalFrom_of_steady (h : deaths? headers = some deaths) (steady : ¬ Overflows headers) :
    totalFrom o 0 deaths = .ok (deathSum deaths) := by
  simp only [overflows_iff h, not_exists, Classical.not_not] at steady
  rw [totalFrom_of_fits steady, Int.zero_add]

theorem exact_of_steady (steady : ¬ Overflows headers) : Exact o headers := by
  cases h : deaths? headers with
  | none =>
    exact ⟨by simp [deathCount_of_unlisted h], by simp [deathCount_of_unlisted h, CountsTo, h]⟩
  | some deaths =>
    have htold : deathCount o headers = .ok (narrow? (deathSum deaths)) := by
      rw [deathCount_of_listed h, totalFrom_of_steady h steady]
      rfl
    refine ⟨by simp [htold], fun n => ?_⟩
    rw [htold, Except.ok.injEq, narrow?_eq_some_iff, countsTo_iff h]

theorem deathCount_of_overflow (h : Overflows headers) :
    deathCount .panics headers = .error Overflow.text := by
  obtain ⟨deaths, hlisted, -⟩ := id h
  rw [deathCount_of_listed hlisted,
    totalFrom_of_overflow fits_zero ((overflows_iff hlisted).mp h)]
  rfl

theorem deathCount_wraps (h : deaths? headers = some deaths) :
    deathCount .wraps headers = .ok (narrow? ((deathSum deaths).bmod UInt64.size)) := by
  rw [deathCount_of_listed h, totalFrom_wraps fits_zero, Int.zero_add]
  rfl

end Counts

theorem bmod_eq_iff (z : Int) {n : Nat} (h : n < UInt32.size) :
    z.bmod UInt64.size = n ↔ ∃ k : Int, z = n + k * UInt64.size := by
  simp only [UInt32.size, UInt64.size] at h ⊢
  constructor
  · intro hz
    exact ⟨z.bdiv 18446744073709551616, by have := Int.bmod_add_bdiv z 18446744073709551616; omega⟩
  · rintro ⟨k, rfl⟩
    rw [Int.add_mul_bmod_self_right]
    exact Int.bmod_eq_of_le (by omega) (by omega)

theorem deathCount_wraps_iff (headers : Option FieldTable) (n : Nat) :
    deathCount .wraps headers = .ok (some n) ↔ ∃ deaths, deaths? headers = some deaths ∧
      n < UInt32.size ∧ ∃ k : Int, deathSum deaths = n + k * UInt64.size := by
  cases h : deaths? headers with
  | none => simp [deathCount_of_unlisted h]
  | some deaths =>
    rw [deathCount_wraps h, Except.ok.injEq, narrow?_eq_some_iff]
    constructor
    · rintro ⟨htotal, hn⟩
      exact ⟨deaths, rfl, hn, (bmod_eq_iff _ hn).mp htotal⟩
    · rintro ⟨_, ⟨⟩, hn, hsum⟩
      exact ⟨(bmod_eq_iff _ hn).mpr hsum, hn⟩

theorem deathCount_wraps_ne_error (headers : Option FieldTable) (m : String) :
    deathCount .wraps headers ≠ .error m := by
  cases h : deaths? headers with
  | none => simp [deathCount_of_unlisted h]
  | some deaths => simp [deathCount_wraps h]

theorem exact_wraps_iff (headers : Option FieldTable) :
    Exact .wraps headers ↔ ∀ deaths, deaths? headers = some deaths → ∀ n : Nat, n < UInt32.size →
      ∀ k : Int, deathSum deaths = n + k * UInt64.size → k = 0 := by
  constructor
  · intro hexact deaths hlisted n hn k hsum
    have htold := (deathCount_wraps_iff headers n).mpr ⟨deaths, hlisted, hn, k, hsum⟩
    have hreal := ((countsTo_iff hlisted n).mp ((hexact.counts n).mp htold)).1
    simp only [UInt64.size] at hsum
    omega
  · intro hzero
    refine ⟨deathCount_wraps_ne_error headers, fun n => ?_⟩
    rw [deathCount_wraps_iff]
    constructor
    · rintro ⟨deaths, hlisted, hn, k, hsum⟩
      refine ⟨deaths, hlisted, ?_, hn⟩
      rw [hsum, hzero deaths hlisted n hn k hsum, Int.zero_mul, Int.add_zero]
    · rintro ⟨deaths, hlisted, hsum, hn⟩
      exact ⟨deaths, hlisted, hn, 0, by rw [hsum, Int.zero_mul, Int.add_zero]⟩

/-- Where sums are checked, the number that is told is the sum of the counts, if it has 32 bits and
no sum on the way to it leaves the 64; a sum that does panics, and there is no other panic. Where
sums are not checked nothing panics, but a number is told that is the sum up to a multiple of 2^64.
-/
theorem deathCount_of_headers (headers : Option FieldTable) :
    (∀ n, deathCount .panics headers = .ok (some n) ↔
      CountsTo headers n ∧ ¬ Overflows headers) ∧
    (∀ m, deathCount .panics headers = .error m ↔ m = Overflow.text ∧ Overflows headers) ∧
    (Exact .panics headers ↔ ¬ Overflows headers) ∧
    (∀ n, deathCount .wraps headers = .ok (some n) ↔ ∃ deaths, deaths? headers = some deaths ∧
      n < UInt32.size ∧ ∃ k : Int, deathSum deaths = n + k * UInt64.size) ∧
    (∀ m, deathCount .wraps headers ≠ .error m) ∧
    (Exact .wraps headers ↔ ∀ deaths, deaths? headers = some deaths → ∀ n : Nat,
      n < UInt32.size → ∀ k : Int, deathSum deaths = n + k * UInt64.size → k = 0) := by
  refine ⟨fun n => ?_, fun m => ?_, ?_, deathCount_wraps_iff headers,
    deathCount_wraps_ne_error headers, exact_wraps_iff headers⟩ <;>
    by_cases hover : Overflows headers
  · simp [deathCount_of_overflow hover, hover]
  · rw [(exact_of_steady hover).counts]
    exact (and_iff_left hover).symm
  · rw [deathCount_of_overflow hover, Except.error.injEq, eq_comm]
    exact (and_iff_left hover).symm
  · exact iff_of_false ((exact_of_steady hover).answers m) fun h => hover h.2
  · exact iff_of_false (fun h => h.answers _ (deathCount_of_overflow hover)) (not_not_intro hover)
  · exact iff_of_true (exact_of_steady hover) hover

/-- Three forged counts, of which two are as large as can be. -/
def forged : Option FieldTable :=
  some [(deathHeader,
    .array ([9223372036854775807, 9223372036854775807, 3].map fun n =>
      .table [("count", .int64 n)]))]

/-- They end the program, or are told as one death. -/
theorem not_exact_of_forged :
    (deathCount .panics forged = .error Overflow.text ∧ ¬ Exact .panics forged) ∧
      deathCount .wraps forged = .ok (some 1) ∧ ¬ Exact .wraps forged := by
  have hpanics : deathCount .panics forged = .error Overflow.text := rfl
  have hwraps : deathCount .wraps forged = .ok (some 1) := rfl
  refine ⟨⟨hpanics, fun h => h.answers _ hpanics⟩, hwraps, fun h => ?_⟩
  obtain ⟨_, ⟨⟩, hsum, -⟩ := (h.counts 1).mp hwraps
  exact absurd hsum (by decide)

end OutcomeRelay.Amqp
