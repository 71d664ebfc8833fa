import OutcomeRelay.Binary.Shortest

/-!
JSON values. Whole numbers of 64 bits stay exact, all others are binary floating point; the members
of a free-form object are kept sorted by key, one for each key.
-/

namespace OutcomeRelay.Json

inductive Number where
  | natural (n : Nat)
  | negative (n : Nat)
  | float (x : Binary)
  deriving DecidableEq, Repr, Inhabited

inductive Value where
  | null
  | bool (b : Bool)
  | number (n : Number)
  | string (s : String)
  | array (items : List Value)
  | object (members : List (String × Value))
  deriving Repr, Inhabited, BEq

namespace Value

def nat (n : Nat) : Value :=
  .number (.natural n)

def int (n : Int) : Value :=
  if n < 0 then .number (.negative n.natAbs) else .number (.natural n.toNat)

def lookup (key : String) : List (String × Value) → Option Value
  | [] => none
  | (k, v) :: ms => if k = key then some v else lookup key ms

def get? (key : String) : Value → Option Value
  | .object ms => lookup key ms
  | _ => none

def string? : Value → Option String
  | .string s => some s
  | _ => none

/-- Put a member in its place among sorted members; an old value of the key gives way. -/
def insert (key : String) (v : Value) : List (String × Value) → List (String × Value)
  | [] => [(key, v)]
  | (k, w) :: ms =>
    if key < k then (key, v) :: (k, w) :: ms
    else if key = k then (key, v) :: ms
    else (k, w) :: insert key v ms

def sorted (ms : List (String × Value)) : List (String × Value) :=
  ms.foldl (fun acc m => insert m.1 m.2 acc) []

theorem lookup_insert_self (key : String) (v : Value) (ms : List (String × Value)) :
    lookup key (insert key v ms) = some v := by
  induction ms with
  | nil => simp [insert, lookup]
  | cons m ms ih =>
    obtain ⟨k, w⟩ := m
    by_cases h : key < k
    · simp [insert, h, lookup]
    · by_cases e : key = k
      · simp [insert, e, lookup]
      · simp [insert, h, e, lookup, Ne.symm e, ih]

theorem lookup_insert_of_ne {key other : String} (h : other ≠ key) (v : Value)
    (ms : List (String × Value)) : lookup other (insert key v ms) = lookup other ms := by
  induction ms with
  | nil => simp [insert, lookup, Ne.symm h]
  | cons m ms ih =>
    obtain ⟨k, w⟩ := m
    by_cases l : key < k
    · simp [insert, l, lookup, Ne.symm h]
    · by_cases e : key = k
      · subst e
        rw [insert, if_neg l, if_pos rfl]
        simp [lookup, Ne.symm h]
      · simp [insert, l, e, lookup, ih]

end Value
end OutcomeRelay.Json
