import OutcomeRelay.Binary.Reader
import OutcomeRelay.Binary.Shortest
import OutcomeRelay.Settings.Reader
import OutcomeRelay.Yaml.Node

/-!
Loosely typed settings, as configuration files and the environment give them. A scalar is converted
to the type that is wanted: words such as `on` and `no` are truth values, truth values are zero and
one, a fractional number is rounded where a whole one is wanted, and every scalar has a text.
-/

namespace OutcomeRelay

inductive Setting where
  | null
  | flag (b : Bool)
  | integer (n : Int)
  | number (x : Binary)
  | text (s : String)
  | list (items : List Setting)
  | table (members : List (String × Setting))
  deriving Inhabited, Repr

inductive LoadError where
  | noSuchFile (name : String)
  | malformed (name : String)
  | noSuchItem (key : String)
  | mismatch (expected : String)
  deriving DecidableEq, Repr

namespace Setting

def kelvin : Char := '\u212a'

def lower (s : String) : String :=
  String.ofList (s.toList.map fun c => if c = kelvin then 'k' else c.toLower)

def fits (n : Int) : Option Int :=
  let half : Int := UInt64.size / 2
  if -half ≤ n ∧ n < half then some n else none

def integer? (s : String) : Option Int :=
  (Text.signed? s.toList).bind fits

def ofVariable (s : String) : Setting :=
  match lower s with
  | "true" => .flag true
  | "false" => .flag false
  | _ =>
    match integer? s, Binary.ofText? .double s with
    | some n, _ => .integer n
    | none, some x => .number x
    | none, none => .text s

def digitIn (base : Nat) (c : Char) : Option Nat :=
  (Yaml.hexValue c).bind fun d => if d < base then some d else none

def based? (base : Nat) (cs : List Char) : Option Int := do
  let digits (cs : List Char) : Option Int := do
    if cs.isEmpty then none
    let ds ← cs.mapM (digitIn base)
    return (ds.foldl (fun n d => base * n + d) 0 : Nat)
  match cs with
  | '-' :: cs => (digits cs).bind fun n => fits (-n)
  | '+' :: cs => (digits cs).bind fits
  | cs => (digits cs).bind fits

def wholeNumber? (s : String) : Option Int :=
  let plain := integer? s
  match s.toList with
  | '0' :: 'x' :: cs => (based? 16 cs).or plain
  | '0' :: 'o' :: cs => (based? 8 cs).or plain
  | '+' :: cs => (integer? (String.ofList cs)).or plain
  | _ => plain

def nonFinite : List String :=
  [".inf", ".Inf", ".INF", "+.inf", "+.Inf", "+.INF", "-.inf", "-.Inf", "-.INF", ".nan", ".NAN"]

/-- The number that a plain scalar writes, or none if it has no such number. -/
def ofNumber? (s : String) : Option (Option Setting) :=
  if s ∈ nonFinite then some none
  else (Binary.ofText? .double s).map fun x => some (.number x)

def ofPlain (s : String) : Option Setting :=
  match s with
  | "~" | "null" => some .null
  | "true" => some (.flag true)
  | "false" => some (.flag false)
  | _ =>
    match wholeNumber? s with
    | some n => some (.integer n)
    | none => (ofNumber? s).getD (some (.text s))

def ofTyped (type s : String) : Option Setting :=
  match type with
  | "bool" =>
    match s with
    | "true" => some (.flag true)
    | "false" => some (.flag false)
    | _ => some .null
  | "int" => some ((integer? s).elim .null .integer)
  | "float" => (ofNumber? s).getD (some .null)
  | "null" => some .null
  | _ => some (.text s)

inductive Key where
  | text (s : String)
  | integer (n : Int)
  deriving DecidableEq, Repr

def Key.name : Key → String
  | .text s => s
  | .integer n => toString n

def Key.ofSetting? : Setting → Option Key
  | .text s => some (.text s)
  | .integer n => some (.integer n)
  | _ => none

mutual

def ofNode : Yaml.Node → Option Setting
  | .plain s => ofPlain s
  | .text s => some (.text s)
  | .typed type s => ofTyped type s
  | .list items => (ofItems items).map .list
  | .map members => (ofMembers members).map fun ms => .table (ms.map fun m => (m.1.name, m.2))

def ofItems : List Yaml.Node → Option (List Setting)
  | [] => some []
  | n :: ns => do
    let s ← ofNode n
    let ss ← ofItems ns
    return s :: ss

def ofMembers : List (Yaml.Node × Yaml.Node) → Option (List (Key × Setting))
  | [] => some []
  | (k, n) :: ms => do
    let key ← Key.ofSetting? (← ofNode k)
    let s ← ofNode n
    let rest ← ofMembers ms
    if rest.any (·.1 = key) then none else return (key, s) :: rest

end

def yes : List String :=
  ["true", "on", "yes"]

def no : List String :=
  ["false", "off", "no"]

def roundedMagnitude (m : Nat) (e : Int) : Nat :=
  let q := Binary.quotient m e
  (2 * q.1 + q.2) / (2 * q.2)

/-- The whole number of 64 bits nearest to a number, or to zero for what is no number. -/
def saturate : Binary → Nat
  | .finite false m e => min (roundedMagnitude m e) (UInt64.size - 1)
  | .infinite false => UInt64.size - 1
  | _ => 0

def natural? (s : String) : Option Nat :=
  match s.toList with
  | '+' :: cs => Text.digits? cs
  | cs => Text.digits? cs

def toNat? : Setting → Option Nat
  | .integer n => if n < 0 then none else some n.toNat
  | .flag b => some b.toNat
  | .number x => some (saturate x)
  | .text s =>
    if lower s ∈ yes then some 1
    else if lower s ∈ no then some 0
    else natural? s
  | _ => none

def toFlag? : Setting → Option Bool
  | .flag b => some b
  | .integer n => some (n != 0)
  | .number x => some (!x.isZero)
  | .text s =>
    if lower s ∈ "1" :: yes then some true
    else if lower s ∈ "0" :: no then some false
    else none
  | _ => none

def toNumber? : Setting → Option Binary
  | .number x => some x
  | .integer n => some (Binary.ofInt .double n)
  | .flag b => some (Binary.ofNat .double b.toNat)
  | .text s =>
    if lower s ∈ yes then some (Binary.ofNat .double 1)
    else if lower s ∈ no then some (Binary.ofNat .double 0)
    else Binary.ofText? .double s
  | _ => none

def toText? : Setting → Option String
  | .text s => some s
  | .flag b => some (if b then "true" else "false")
  | .integer n => some (toString n)
  | .number x => some (Binary.plain .double x)
  | _ => none

/-- One of a few names in letters of any case, as a text or as the only key of a table. -/
def choice? {α : Type} (known : List (String × α)) (s : Setting) : Option α :=
  let choose (name : String) := (known.find? fun k => lower k.1 == lower name).map (·.2)
  match s with
  | .text name => choose name
  | .table [m] => choose m.1
  | _ => none

def expect {α : Type} (expected : String) : Option α → Except LoadError α
  | some a => .ok a
  | none => .error (.mismatch expected)

/-- Loosely typed settings; a list may be longer than the record it gives. -/
def reader : Settings.Reader Setting LoadError where
  parts? type
    | .table ms => .ok (.table ms)
    | .list is => .ok (.list is)
    | _ => .error (.mismatch type)
  text? s := expect "text" s.toText?
  natural? limit kind s := do
    let n ← expect kind s.toNat?
    if n < limit then return n else throw (.mismatch kind)
  flag? s := expect "flag" s.toFlag?
  single? s := (expect "number" s.toNumber?).map fun x => x.convert .single
  choice? known s := expect "name" (choice? known s)
  isNull
    | .null => true
    | _ => false
  surplus := none

end Setting
end OutcomeRelay
