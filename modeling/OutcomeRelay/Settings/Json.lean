import OutcomeRelay.Json.Reader
import OutcomeRelay.Settings.Reader

/-!
Settings in JSON values.
-/

namespace OutcomeRelay.Settings

open Json

def jsonMembers (ms : List (Literal × Document)) : Except Error (List (String × Document)) :=
  ms.mapM fun m => (Document.key m).map fun k => (k, m.2)

def jsonParts (type : String) : Document → Except Error (Parts Document)
  | .object ms _ => (jsonMembers ms).map .table
  | .array is _ => .ok (.list is)
  | d => .error (d.mismatch s!"struct {type}")

def json : Reader Document Error where
  parts? := jsonParts
  text? := Document.text?
  natural? := Document.natural?
  flag? := Document.flag?
  single? := Document.single?
  choice? known d := d.variant? .value known
  isNull d := match d with
    | .null => true
    | _ => false
  surplus := some .otherData

end OutcomeRelay.Settings
