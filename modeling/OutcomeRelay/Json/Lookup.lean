import OutcomeRelay.Json.Value
import OutcomeRelay.Text.Utf8

/-!
Looking things up in free-form objects. What is absent, or of another type, has a default: the empty
text, the empty list, or nothing.
-/

namespace OutcomeRelay.Json.Value

def member (v : Value) (key : String) : Value :=
  (v.get? key).getD .null

def given? (v : Value) (key : String) : Option Value :=
  match v.get? key with
  | some .null => none
  | r => r

def textAt? (v : Value) (key : String) : Option String :=
  (v.get? key).bind string?

def textAt (v : Value) (key : String) : String :=
  (v.textAt? key).getD ""

def nat? : Value → Option Nat
  | .number (.natural n) => some n
  | _ => none

def natAt? (v : Value) (key : String) : Option Nat :=
  (v.get? key).bind nat?

def natAt (v : Value) (key : String) (default : Nat) : Nat :=
  (v.natAt? key).getD default

def flagAt (v : Value) (key : String) (default : Bool) : Bool :=
  match v.get? key with
  | some (.bool b) => b
  | _ => default

def items : Value → List Value
  | .array vs => vs
  | _ => []

def itemsAt (v : Value) (key : String) : List Value :=
  (v.member key).items

def textsAt (v : Value) (key : String) : List String :=
  (v.itemsAt key).map fun x => x.string?.getD ""

def members : Value → List (String × Value)
  | .object ms => ms
  | _ => []

def hexValue (c : Char) : Nat :=
  if c.isDigit then c.toNat - '0'.toNat else c.toNat - 'a'.toNat + 10

def ofHex : List Char → Bytes
  | a :: b :: rest => UInt8.ofNat (hexValue a * 16 + hexValue b) :: ofHex rest
  | _ => []

def bodyOf (v : Value) : Bytes :=
  match v.textAt? "body_hex" with
  | some h => ofHex h.toList
  | none => Text.encode (v.textAt "body")

end OutcomeRelay.Json.Value
