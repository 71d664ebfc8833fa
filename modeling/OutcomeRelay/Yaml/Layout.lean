import OutcomeRelay.Yaml.Tag

/-!
The tokens of a YAML text up to a place, with the blocks and brackets that are open there. A colon
makes a key of a token before it, so the tokens stand in slots: what a colon adds goes in front of
the slot that the key begins in, and the numbers of the slots stay.
-/

namespace OutcomeRelay.Yaml

inductive Token where
  | directive (d : Directive)
  | documentStart
  | documentEnd
  | listStart
  | mapStart
  | blockEnd
  | listOpen
  | listClose
  | mapOpen
  | mapClose
  | item
  | comma
  | key
  | value
  | alias (name : String)
  | anchor (name : String)
  | tag (t : Tag)
  | plain (text : String)
  | text (text : String)
  deriving DecidableEq, Repr

/-- Where a key begins, if a colon follows it. One that stands in the column of its block cannot be
anything else. -/
structure KeyStart where
  slot : Nat
  index : Nat
  line : Nat
  column : Nat
  required : Bool
  deriving Repr

/-- A column that what follows is indented by. A block is closed where it ends; other levels are
tentative. -/
structure Level where
  column : Nat
  isBlock : Bool
  deriving DecidableEq, Repr

structure Layout where
  cursor : Cursor
  slots : Array (List Token)
  levels : List Level
  keyAllowed : Bool
  key : Option KeyStart
  outerKeys : List (Option KeyStart)
  /-- The place where a colon may touch its value. -/
  adjacent : Nat
  /-- Whether a map between braces, or a key that is marked as one, was met last. -/
  mapOpened : Bool
  /-- For each open list between brackets, whether a map of one member is open in it. -/
  pairs : List Bool
  deriving Repr

namespace Layout

def ofText (text : String) : Layout :=
  ⟨.ofText text, #[], [], true, none, [], 0, false, []⟩

def inBrackets (s : Layout) : Bool :=
  !s.outerKeys.isEmpty

def least (s : Layout) : Nat :=
  (s.levels.head?.map (·.column)).getD 0

def inner (s : Layout) : Nat :=
  (s.levels.head?.map (·.column + 1)).getD 0

def push (t : Token) (s : Layout) : Layout :=
  { s with slots := s.slots.push [t] }

def pushBefore (slot : Nat) (t : Token) (s : Layout) : Layout :=
  { s with slots := s.slots.modify slot (t :: ·) }

def closeLevels (keep : Level → Bool) (s : Layout) : Layout :=
  if s.inBrackets then s
  else
    let left := s.levels.takeWhile (!keep ·)
    let ends := (left.filter (·.isBlock)).map fun _ => [Token.blockEnd]
    { s with levels := s.levels.dropWhile (!keep ·), slots := s.slots ++ ends.toArray }

def dropTentative (s : Layout) : Layout :=
  { s with levels := s.levels.dropWhile (!·.isBlock) }

/-- What follows is indented deeper than the block, unless it turns out to be a block of its own. -/
def addTentative (s : Layout) : Layout :=
  match s.levels with
  | l :: _ =>
    if !s.inBrackets && l.isBlock then { s with levels := ⟨l.column + 1, false⟩ :: s.levels }
    else s
  | [] => s

def openBlock (column : Nat) (t : Token) (slot : Option Nat) (s : Layout) : Layout :=
  if s.inBrackets then s
  else
    let levels := match s.levels with
      | l :: ls => if !l.isBlock && l.column ≤ column then ls else l :: ls
      | [] => []
    let s := { s with levels := levels }
    if levels.head?.all (·.column < column) then
      let s := { s with levels := ⟨column, true⟩ :: levels }
      match slot with
      | some n => s.pushBefore n t
      | none => s.push t
    else s

def saveKey (s : Layout) : Layout :=
  if s.keyAllowed then
    let c := s.cursor
    let required := !s.inBrackets && s.levels.head? == some ⟨c.column, true⟩
    { s with key := some ⟨s.slots.size, c.index, c.line, c.column, required⟩ }
  else s

def dropKey? (s : Layout) : Option Layout :=
  if s.key.any (·.required) then none else some { s with key := none }

def farthestKey : Nat := 1024

/-- Forget a key that is too far away. Outside of brackets a key stands on one line. -/
def dropStaleKey? (s : Layout) : Option Layout :=
  let stale := s.key.any fun k =>
    k.line < s.cursor.line || k.index + farthestKey < s.cursor.index
  if !s.inBrackets && stale then s.dropKey? else some s

/-- Go to the next token. Outside of brackets a key may begin in a new line. -/
def toNextToken? (s : Layout) : Option Layout := do
  let c ← s.cursor.nextToken? s.least
  let newLine := s.cursor.line < c.line && !s.inBrackets
  return { s with cursor := c, keyAllowed := s.keyAllowed || newLine }

def endPair (s : Layout) : Layout :=
  match s.pairs with
  | true :: ps => { s with pairs := false :: ps, mapOpened := false }.push .mapClose
  | _ => s

end Layout
end OutcomeRelay.Yaml
