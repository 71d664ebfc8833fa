/-!
Places in a YAML text, and the blanks, comments and line breaks that are passed on the way to the
next token. A comment stands behind a blank or begins its line.
-/

namespace OutcomeRelay.Yaml

def isBlank (c : Char) : Bool :=
  c == ' ' || c == '\t'

def isFlowMark (c : Char) : Bool :=
  c == ',' || c == '[' || c == ']' || c == '\x7b' || c == '\x7d'

def isNameChar (c : Char) : Bool :=
  c.isAlphanum || c == '-' || c == '_'

def lineEnds : List Char → Bool
  | [] => true
  | c :: _ => c == '\n'

def wordEnds : List Char → Bool
  | [] => true
  | c :: _ => isBlank c || c == '\n'

def isMarker (mark : Char) : List Char → Bool
  | a :: b :: c :: cs => a == mark && b == mark && c == mark && wordEnds cs
  | _ => false

/-- A place in a text: what follows it, its position, and whether its line holds only blanks before
it. -/
structure Cursor where
  rest : List Char
  index : Nat
  line : Nat
  column : Nat
  indenting : Bool
  deriving Repr

def lines : List Char → List Char
  | [] => []
  | '\r' :: '\n' :: cs => '\n' :: lines cs
  | '\r' :: cs => '\n' :: lines cs
  | c :: cs => c :: lines cs

def folded (breaks : Nat) : List Char :=
  if breaks = 1 then [' '] else List.replicate (breaks - 1) '\n'

namespace Cursor

/-- The front of a text. A null character ends the text. -/
def ofText (text : String) : Cursor :=
  ⟨lines (text.toList.takeWhile (· != '\x00')), 0, 0, 0, true⟩

def step (c : Cursor) : Cursor :=
  match c.rest with
  | [] => c
  | x :: cs =>
    if x == '\n' then ⟨cs, c.index + 1, c.line + 1, 0, true⟩
    else ⟨cs, c.index + 1, c.line, c.column + 1, c.indenting && isBlank x⟩

theorem length_step (c : Cursor) : c.step.rest.length = c.rest.length - 1 := by
  unfold step
  split
  · simp [*]
  · split <;> simp [*]

def skip : Nat → Cursor → Cursor
  | 0, c => c
  | n + 1, c => skip n c.step

theorem length_skip (n : Nat) (c : Cursor) : (c.skip n).rest.length = c.rest.length - n := by
  induction n generalizing c with
  | zero => rfl
  | succ n ih => rw [skip, ih, length_step]; omega

def skipWhile (p : Char → Bool) (c : Cursor) : Cursor :=
  c.skip (c.rest.takeWhile p).length

def skipLine (c : Cursor) : Cursor :=
  c.skipWhile (· != '\n')

def atMarker (c : Cursor) : Bool :=
  c.column == 0 && (isMarker '-' c.rest || isMarker '.' c.rest)

def pastBlanks? (c : Cursor) : Option Cursor :=
  match c.rest.dropWhile isBlank with
  | '#' :: _ => if wordEnds c.rest then some c.skipLine else none
  | _ => some (c.skipWhile isBlank)

/-- The place of the next token. A tab left of column `least` may stand only on a line without
tokens. -/
def nextToken? (least : Nat) (c : Cursor) : Option Cursor :=
  match _h : c.rest with
  | [] => some c
  | x :: _ =>
    if x == '\n' then nextToken? least c.step
    else if x == '#' then nextToken? least (c.step.skipLine)
    else if x == '\t' && c.indenting && c.column < least then do
      let c' ← c.pastBlanks?
      if lineEnds c'.rest then nextToken? least c.step else none
    else if isBlank x then nextToken? least c.step
    else some c
termination_by c.rest.length
decreasing_by all_goals
  simp only [skipLine, skipWhile, length_skip, length_step, _h, List.length_cons]; omega

def skipSpaces (c : Cursor) : Cursor :=
  match _h : c.rest with
  | [] => c
  | x :: _ =>
    if x == ' ' || x == '\n' then skipSpaces c.step
    else if x == '#' then skipSpaces c.step.skipLine
    else c
termination_by c.rest.length
decreasing_by all_goals
  simp only [skipLine, skipWhile, length_skip, length_step, _h, List.length_cons]; omega

end Cursor
end OutcomeRelay.Yaml
