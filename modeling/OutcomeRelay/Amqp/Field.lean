/-!
Field values of AMQP tables, and the number of deaths that a broker notes in the headers of a
message: the counts of its death entries, added up in 64 bits with a sign. What has no count adds
nothing, and a total that is no 32-bit number is no count. A sum that leaves the 64 bits panics
where the program was built to check its sums, and goes round them where it was not.
-/

namespace OutcomeRelay.Amqp

inductive FieldValue where
  | int8 (n : Int8)
  | uint8 (n : UInt8)
  | int16 (n : Int16)
  | uint16 (n : UInt16)
  | int32 (n : Int32)
  | uint32 (n : UInt32)
  | int64 (n : Int64)
  | flag (b : Bool)
  | text (s : String)
  | timestamp (n : UInt64)
  | real
  | void
  | array (items : List FieldValue)
  | table (members : List (String × FieldValue))
  deriving Inhabited

abbrev FieldTable := List (String × FieldValue)

namespace FieldValue

def toInt? : FieldValue → Option Int
  | int8 n => some n.toInt
  | uint8 n => some n.toNat
  | int16 n => some n.toInt
  | uint16 n => some n.toNat
  | int32 n => some n.toInt
  | uint32 n => some n.toNat
  | int64 n => some n.toInt
  | _ => none

def count? : FieldValue → Option Int
  | table ms => (ms.lookup "count").bind toInt?
  | _ => none

end FieldValue

def deathHeader : String :=
  "x-death"

/-- What a sum does that leaves its 64 bits, as the program was built. -/
inductive Overflow where
  | panics
  | wraps
  deriving DecidableEq, Repr

namespace Overflow

def text : String :=
  "attempt to add with overflow"

def add (o : Overflow) (m n : Int) : Except String Int :=
  if Int64.minValue.toInt ≤ m + n ∧ m + n ≤ Int64.maxValue.toInt then .ok (m + n)
  else match o with
    | .panics => .error text
    | .wraps => .ok ((m + n).bmod UInt64.size)

end Overflow

def deathTotal (o : Overflow) (deaths : List FieldValue) : Except String Int :=
  (deaths.filterMap FieldValue.count?).foldlM o.add 0

def narrow? (total : Int) : Option Nat :=
  if 0 ≤ total ∧ total < UInt32.size then some total.toNat else none

def deathCount (o : Overflow) (headers : Option FieldTable) : Except String (Option Nat) :=
  match headers.bind fun h => h.lookup deathHeader with
  | some (.array deaths) => (deathTotal o deaths).map narrow?
  | _ => .ok none

end OutcomeRelay.Amqp
