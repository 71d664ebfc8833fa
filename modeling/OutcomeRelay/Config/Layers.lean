import OutcomeRelay.Config.Setting

/-!
Layers of settings. A later layer overrides an earlier one key by key: tables are merged, and
anything else replaces what was there. Letters in keys have no case. A key of a layer may be a path
through tables and lists.
-/

namespace OutcomeRelay.Setting

def members : Setting → List (String × Setting)
  | .table ms => ms
  | _ => []

def update (key : String) (change : Option Setting → Setting) :
    List (String × Setting) → List (String × Setting)
  | [] => [(key, change none)]
  | (k, v) :: ms =>
    if k = key then (k, change (some v)) :: ms else (k, v) :: update key change ms

mutual

def put (key : String) : Setting → List (String × Setting) → List (String × Setting)
  | .table new, ms =>
    update (lower key) (fun old => putAll new (old.getD (.table []))) ms
  | v, ms => update (lower key) (fun _ => v) ms

/-- Merge members into a setting. What is no table gives way to the first of them. -/
def putAll : List (String × Setting) → Setting → Setting
  | [], s => s
  | (k, v) :: rest, s => putAll rest (.table (put k v s.members))

end

inductive Step where
  | key (name : String)
  | item (index : Int)
  deriving DecidableEq, Repr

/-- The place in a list that an index names; a negative one counts from the end. -/
def place? (length : Nat) (index : Int) : Option Nat :=
  let i := if index < 0 then length + index else index
  if i < 0 then none else some i.toNat

def items : Setting → List Setting
  | .list is => is
  | _ => []

def setItem (i : Nat) (s : Setting) (is : List Setting) : List Setting :=
  (is ++ List.replicate (i + 1 - is.length) Setting.null).set i s

/-- Put a value at the end of a path. What is no table, or no list, on the way gives way to one. -/
def putPath? : List Step → Setting → Setting → Option Setting
  | [], v, _ => some v
  | [.key k], v, s => some (.table (put k v s.members))
  | .key k :: steps, v, s => do
    let old := (s.members.lookup (lower k)).getD .null
    let new ← putPath? steps v old
    return .table (update (lower k) (fun _ => new) s.members)
  | .item n :: steps, v, s => do
    let i ← place? s.items.length n
    let new ← putPath? steps v (s.items[i]?.getD .null)
    return .list (setItem i new s.items)

def isKeyChar (c : Char) : Bool :=
  c.isAlphanum || c == ' ' || c == '_' || c == '-'

def index? (cs : List Char) : Option (Int × List Char) := do
  let number := (cs.takeWhile (· != ']')).dropWhile Yaml.isBlank
  let number := (number.reverse.dropWhile Yaml.isBlank).reverse
  let n ← if number.head? = some '+' then none else integer? (String.ofList number)
  match cs.dropWhile (· != ']') with
  | _ :: rest => return (n, rest)
  | [] => none

def stepsFrom? : Nat → List Char → Option (List Step)
  | _, [] => some []
  | fuel + 1, '.' :: cs =>
    let key := cs.takeWhile isKeyChar
    if key.isEmpty then none
    else (stepsFrom? fuel (cs.drop key.length)).map (.key (String.ofList key) :: ·)
  | fuel + 1, '[' :: cs => do
    let (n, rest) ← index? cs
    return .item n :: (← stepsFrom? fuel rest)
  | _, _ => none

/-- The steps that a key stands for: keys behind dots and indices in brackets. A text that is no
such path is one key. -/
def path (key : String) : List Step :=
  let cs := key.toList
  let first := cs.takeWhile isKeyChar
  let steps :=
    if first.isEmpty then none
    else (stepsFrom? cs.length (cs.drop first.length)).map (.key (String.ofList first) :: ·)
  steps.getD [.key key]

def overlay (base : Setting) (layer : List (String × Setting)) : Except LoadError Setting :=
  layer.foldlM (fun s m => match putPath? (path m.1) m.2 s with
    | some s => .ok s
    | none => .error (.noSuchItem m.1)) base

end OutcomeRelay.Setting
