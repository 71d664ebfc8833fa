import OutcomeRelay.Json.Document
import OutcomeRelay.Text.Quoted

/-!
Faults of reading JSON as a typed value, their categories and their texts.
-/

namespace OutcomeRelay.Json

inductive Found where
  | null
  | bool (b : Bool)
  | integer (n : Int)
  | floating
  | text (s : String)
  | sequence
  | map
  deriving DecidableEq, Repr

inductive Error where
  | broken (cause : Cause)
  | missingField (name : String)
  | duplicateField (name : String)
  | unknownVariant (found : String) (known : List String)
  | invalidType (found : Found) (expected : String)
  | invalidValue (found : Found) (expected : String)
  | otherData
  deriving DecidableEq, Repr

inductive Category where
  | syntactic
  | endOfInput
  | data
  deriving DecidableEq, Repr

def Cause.category : Cause → Category
  | .malformed => .syntactic
  | .truncated => .endOfInput

def Cause.text : Cause → String
  | .malformed => "<json:syntax>"
  | .truncated => "<json:eof>"

def Found.text? : Found → Option String
  | .null => some "null"
  | .bool b => some s!"boolean `{b}`"
  | .integer n => some s!"integer `{n}`"
  | .floating => none
  | .text s => some ("string " ++ Text.quoted s)
  | .sequence => some "sequence"
  | .map => some "map"

def choices (known : List String) : String :=
  let quoted := known.map fun v => s!"`{v}`"
  match quoted with
  | [a, b] => s!"{a} or {b}"
  | vs => "one of " ++ ", ".intercalate vs

namespace Error

def category : Error → Category
  | .broken c => c.category
  | _ => .data

/-- The cause of a fault of the text; faults of shape count as wrong characters. -/
def cause : Error → Cause
  | .broken c => c
  | _ => .malformed

/-- The text of a fault of shape. Faults that show a binary number have none. -/
def message? : Error → Option String
  | .broken _ | .otherData => none
  | .missingField n => some s!"missing field `{n}`"
  | .duplicateField n => some s!"duplicate field `{n}`"
  | .unknownVariant v known => some s!"unknown variant `{v}`, expected {choices known}"
  | .invalidType f e => f.text?.map fun t => s!"invalid type: {t}, expected {e}"
  | .invalidValue f e => f.text?.map fun t => s!"invalid value: {t}, expected {e}"

end Error
end OutcomeRelay.Json
