import OutcomeRelay.Log
import OutcomeRelay.Text.Quoted

/-!
Log entries as lines: the level, the message, and each field behind its name. Texts are quoted, and
what is shown as text is not; controls in the message that steer a terminal are escaped.
-/

namespace OutcomeRelay.Log

def Field.display : Field → String
  | .text s => Text.quoted s
  | .shown s => s
  | .number n => toString n
  | .flag b => if b then "true" else "false"

def terminalControls : List Char :=
  ['\x1b', '\x07', '\x08', '\x0c', '\x7f']

/-- A character of a message. The controls above the ASCII range are escaped by their code points.
-/
def shownChar (c : Char) : List Char :=
  if terminalControls.contains c then
    let ds := Text.hex c.toNat
    ['\\', 'x'] ++ List.replicate (2 - ds.length) '0' ++ ds
  else if 0x80 ≤ c.toNat && c.toNat < 0xA0 then
    ['\\', 'u', '\x7b'] ++ Text.hex c.toNat ++ ['\x7d']
  else [c]

def Entry.line (e : Entry) : String :=
  let message := String.ofList (e.message.toList.flatMap shownChar)
  " ".intercalate (e.level.name :: message :: e.fields.map fun f => f.1 ++ "=" ++ f.2.display)

end OutcomeRelay.Log
