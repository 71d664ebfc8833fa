import OutcomeRelay.Binary.Basic

/-!
Reading settings. A reader says how one kind of source shows records and leaves; a record type lists
its fields by name, and is read from any source: from a table of members in any order, or from a
list of fields in their order. Fields that are not given keep their defaults.
-/

namespace OutcomeRelay.Settings

inductive Parts (σ : Type) where
  | table (members : List (String × σ))
  | list (items : List σ)

/-- How settings stand in sources of type `σ`, with faults of type `ε`. A reader may refuse a list
that is longer than the record. -/
structure Reader (σ ε : Type) where
  parts? : (type : String) → σ → Except ε (Parts σ)
  text? : σ → Except ε String
  natural? : (limit : Nat) → (kind : String) → σ → Except ε Nat
  flag? : σ → Except ε Bool
  single? : σ → Except ε Binary
  choice? : {α : Type} → List (String × α) → σ → Except ε α
  isNull : σ → Bool
  surplus : Option ε

/-- A field of a record: its name, and how its value changes the record. -/
abbrev Field (σ ε α : Type) := String × (σ → Except ε (α → α))

namespace Reader

variable {σ ε α β : Type}

def field (name : String) (read : σ → Except ε β) (store : β → α → α) : Field σ ε α :=
  (name, fun s => (read s).map store)

/-- Change a record by a member; one whose name is not a field is passed over. -/
def setMember (fields : List (Field σ ε α)) (a : α) (m : String × σ) : Except ε α :=
  match fields.find? fun f => f.1 == m.1 with
  | some f => (f.2 m.2).map fun change => change a
  | none => .ok a

def setItems (surplus : Option ε) : List (Field σ ε α) → α → List σ → Except ε α
  | f :: fs, a, s :: ss =>
    match f.2 s with
    | .ok change => setItems surplus fs (change a) ss
    | .error e => .error e
  | [], a, _ :: _ => match surplus with
    | some e => .error e
    | none => .ok a
  | _, a, [] => .ok a

def record? (r : Reader σ ε) (type : String) (fields : List (Field σ ε α)) (default : α) (s : σ) :
    Except ε α :=
  match r.parts? type s with
  | .error e => .error e
  | .ok (.table ms) => ms.foldlM (setMember fields) default
  | .ok (.list is) => setItems r.surplus fields default is

def nullable (r : Reader σ ε) (read : σ → Except ε β) (s : σ) : Except ε (Option β) :=
  if r.isNull s then .ok none else (read s).map some

def u64? (r : Reader σ ε) : σ → Except ε Nat :=
  r.natural? UInt64.size "u64"

def size? (r : Reader σ ε) : σ → Except ε Nat :=
  r.natural? UInt64.size "usize"

def u32? (r : Reader σ ε) : σ → Except ε Nat :=
  r.natural? UInt32.size "u32"

def u16? (r : Reader σ ε) : σ → Except ε Nat :=
  r.natural? UInt16.size "u16"

end Reader
end OutcomeRelay.Settings
