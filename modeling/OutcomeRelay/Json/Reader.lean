import OutcomeRelay.Json.Error

/-!
Reading a syntax tree as a value: as a free-form one, or as one of a wanted type. Faults are those
of the first offending place in the order of the text. A tree made from a value has no breaks, and
`value?` gives back the value it was made from.
-/

namespace OutcomeRelay.Json

inductive Origin where
  | text
  | value
  deriving DecidableEq, Repr

def Number.found : Number → Found
  | .natural n => .integer n
  | .negative n => .integer (-(n : Int))
  | .float _ => .floating

def Closing.check : Closing → Except Error Unit
  | .closed => .ok ()
  | .broken c => .error (.broken c)

namespace Document

def mismatch (expected : String) : Document → Error
  | .null => .invalidType .null expected
  | .bool b => .invalidType (.bool b) expected
  | .number (.ok n) => .invalidType n.found expected
  | .number (.error c) => .broken c
  | .string (.text s) => .invalidType (.text s) expected
  | .string .unreadable => .broken .malformed
  | .string (.broken c _) => .broken c
  | .array .. => .invalidType .sequence expected
  | .object .. => .invalidType .map expected
  | .garbled c | .broken c => .broken c

def key (m : Literal × Document) : Except Error String :=
  match m.1 with
  | .text s => .ok s
  | .unreadable => .error (.broken .malformed)
  | .broken c _ => .error (.broken c)

mutual

def value? (depth : Nat) : Document → Except Error Value
  | .null => .ok .null
  | .bool b => .ok (.bool b)
  | .number (.ok n) => .ok (.number n)
  | .number (.error c) => .error (.broken c)
  | .string (.text s) => .ok (.string s)
  | .string .unreadable => .error (.broken .malformed)
  | .string (.broken c _) => .error (.broken c)
  | .array is closing =>
    match depth with
    | 0 => .error (.broken .malformed)
    | depth + 1 => do
      let vs ← items? depth is
      Closing.check closing
      return .array vs
  | .object ms closing =>
    match depth with
    | 0 => .error (.broken .malformed)
    | depth + 1 => do
      let vs ← members? depth ms
      Closing.check closing
      return .object (Value.sorted vs)
  | .garbled c | .broken c => .error (.broken c)

def items? (depth : Nat) : List Document → Except Error (List Value)
  | [] => .ok []
  | d :: ds => do
    let v ← value? depth d
    let vs ← items? depth ds
    return v :: vs

def members? (depth : Nat) : List (Literal × Document) → Except Error (List (String × Value))
  | [] => .ok []
  | (k, d) :: ms => do
    let name ← key (k, d)
    let v ← value? depth d
    let vs ← members? depth ms
    return (name, v) :: vs

end

mutual

def ofValue : Value → Document
  | .null => .null
  | .bool b => .bool b
  | .number n => .number (.ok n)
  | .string s => .string (.text s)
  | .array is => .array (ofItems is) .closed
  | .object ms => .object (ofMembers ms) .closed

def ofItems : List Value → List Document
  | [] => []
  | v :: vs => ofValue v :: ofItems vs

def ofMembers : List (String × Value) → List (Literal × Document)
  | [] => []
  | (k, v) :: ms => (.text k, ofValue v) :: ofMembers ms

end

def text? : Document → Except Error String
  | .string (.text s) => .ok s
  | d => .error (d.mismatch "a string")

def natural? (limit : Nat) (kind : String) : Document → Except Error Nat
  | .number (.ok (.natural n)) =>
    if n < limit then .ok n else .error (.invalidValue (.integer n) kind)
  | .number (.ok (.negative n)) => .error (.invalidValue (.integer (-(n : Int))) kind)
  | d => .error (d.mismatch kind)

def flag? : Document → Except Error Bool
  | .bool b => .ok b
  | d => .error (d.mismatch "a boolean")

def single? : Document → Except Error Binary
  | .number (.ok (.natural n)) => .ok (Binary.ofNat .single n)
  | .number (.ok (.negative n)) => .ok (Binary.ofInt .single (-(n : Int)))
  | .number (.ok (.float x)) => .ok (x.convert .single)
  | d => .error (d.mismatch "f32")

/-- One of a few names, written as a string or as the only key of an object with a null value. -/
def variant? {α : Type} (origin : Origin) (known : List (String × α)) (d : Document) :
    Except Error α := do
  let choose (s : String) : Except Error α :=
    match known.find? (·.1 == s) with
    | some v => .ok v.2
    | none => .error (.unknownVariant s (known.map (·.1)))
  let unit : Document → Except Error Unit
    | .null => .ok ()
    | d => .error (d.mismatch "unit")
  match origin, d with
  | _, .string (.text s) => choose s
  | .value, .object [m] _ => do
    let v ← choose (← key m)
    unit m.2
    return v
  | .value, .object _ _ => throw (.invalidValue .map "map with a single key")
  | .value, d => throw (d.mismatch "string or map")
  | .text, .object (m :: ms) closing => do
    let v ← choose (← key m)
    unit m.2
    if ms.isEmpty then Closing.check closing else throw (.broken .malformed)
    return v
  | .text, .object [] .closed => throw (.broken .malformed)
  | .text, .object [] (.broken c) => throw (.broken c)
  | .text, .string (.broken c _) | .text, .broken c => throw (.broken c)
  | .text, _ => throw (.broken .malformed)

end Document

/-- The free-form value of a text. Brackets nest at most 127 deep. -/
def Source.value? (s : Source) : Except Error Value := do
  let v ← s.document.value? 127
  if s.trailing then throw (.broken .malformed)
  return v

def Source.read {α : Type} (s : Source) (read : Document → Except Error α) : Except Error α := do
  let a ← read s.document
  if s.trailing then throw (.broken .malformed)
  return a

end OutcomeRelay.Json
