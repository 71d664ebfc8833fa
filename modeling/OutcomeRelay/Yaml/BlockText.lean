import OutcomeRelay.Yaml.Cursor

/-!
Scalars as blocks of lines. Their indentation is that of their first line, unless it is given; lines
are kept as they are or folded into one, except where a line begins with a blank.
-/

namespace OutcomeRelay.Yaml

inductive Chomping where
  | strip
  | clip
  | keep
  deriving DecidableEq, Repr

structure BlockStyle where
  chomping : Chomping
  indentation : Option Nat

def chomping? : Char → Option Chomping
  | '+' => some .keep
  | '-' => some .strip
  | _ => none

def indentation? (c : Char) : Option Nat :=
  if c.isDigit then some (c.toNat - '0'.toNat) else none

def blockStyle (cs : List Char) : BlockStyle × Nat :=
  match cs with
  | [] => (⟨.clip, none⟩, 0)
  | c :: cs =>
    match chomping? c, indentation? c with
    | some k, _ =>
      match cs.head?.bind indentation? with
      | some n => (⟨k, some n⟩, 2)
      | none => (⟨k, none⟩, 1)
    | none, some n =>
      match cs.head?.bind chomping? with
      | some k => (⟨k, some n⟩, 2)
      | none => (⟨.clip, some n⟩, 1)
    | none, none => (⟨.clip, none⟩, 0)

def toContent (width : Nat) (breaks : Nat) (c : Cursor) : Nat × Cursor :=
  match _h : c.rest with
  | ' ' :: _ => if c.column < width then toContent width breaks c.step else (breaks, c)
  | '\n' :: _ => toContent width (breaks + 1) c.step
  | _ => (breaks, c)
termination_by c.rest.length
decreasing_by all_goals simp only [Cursor.length_step, _h, List.length_cons]; omega

def toFirstContent (breaks deepest : Nat) (c : Cursor) : Nat × Nat × Cursor :=
  match _h : c.rest with
  | ' ' :: _ => toFirstContent breaks deepest c.step
  | '\n' :: _ => toFirstContent (breaks + 1) (max deepest c.column) c.step
  | _ => (breaks, max deepest c.column, c)
termination_by c.rest.length
decreasing_by all_goals simp only [Cursor.length_step, _h, List.length_cons]; omega

/-- What stands between two lines of a block: the break of the one before, if there is one, and the
breaks of the empty lines between them. -/
structure Between where
  broken : Bool
  empty : Nat
  afterBlank : Bool

def Between.kept (b : Between) : List Char :=
  List.replicate (b.broken.toNat + b.empty) '\n'

def Between.text (b : Between) (folds atBlank : Bool) : List Char :=
  if folds && b.broken && !b.afterBlank && !atBlank then folded (b.empty + 1) else b.kept

/-- The lines of a block with `width` columns of indentation, what follows the last one, and the
place behind them. Without indentation the mark at the end of a document ends the block. -/
def blockLines (folds : Bool) (width : Nat) :
    Nat → Between → Cursor → List Char × Between × Cursor
  | 0, b, c => ([], b, c)
  | fuel + 1, b, c =>
    if c.column != width || c.rest.isEmpty || (width = 0 && isMarker '.' c.rest) then ([], b, c)
    else
      let atBlank := c.rest.head?.any isBlank
      let line := c.rest.takeWhile (· != '\n')
      let text := b.text folds atBlank ++ line
      let c := c.skip line.length
      if c.rest.isEmpty then (text, ⟨false, 0, atBlank⟩, c)
      else
        let (empty, next) := toContent width 0 c.step
        let (more, last, after) := blockLines folds width fuel ⟨true, empty, atBlank⟩ next
        (text ++ more, last, after)

/-- The end of a block. Where the text ends behind the indentation of the block, a line break is
understood. -/
def blockEnd (k : Chomping) (width : Nat) (b : Between) (c : Cursor) : List Char :=
  let tail := List.replicate b.broken.toNat '\n'
    ++ if c.rest.isEmpty && max width 1 ≤ c.column then ['\n'] else []
  match k with
  | .strip => []
  | .clip => tail
  | .keep => tail ++ List.replicate b.empty '\n'

def emptyBlock (k : Chomping) (broken empty : Nat) : List Char :=
  match k with
  | .strip => []
  | .clip => List.replicate broken '\n'
  | .keep => List.replicate (if empty = 0 then broken else empty) '\n'

/-- A scalar that is a block of lines, from the mark that opens it on. What is around it stands in
column `least`, and what it holds in column `inner` or deeper. -/
def blockText? (folds : Bool) (least inner : Nat) (c : Cursor) : Option (String × Cursor) := do
  let (style, marks) := blockStyle c.step.rest
  if style.indentation = some 0 then none
  let c ← (c.skip (marks + 1)).pastBlanks?
  if !lineEnds c.rest then none
  let broken := c.rest.length - c.step.rest.length
  let c := c.step
  if c.rest.head? == some '\t' then none
  let (empty, width, c) := match style.indentation with
    | some n =>
      let (empty, c') := toContent (least + n) 0 c
      (empty, least + n, c')
    | none =>
      let (empty, deepest, c') := toFirstContent 0 0 c
      (empty, max deepest inner, c')
  if c.rest.isEmpty then return (String.ofList (emptyBlock style.chomping broken empty), c)
  if c.column < width && inner ≤ c.column then none
  let (text, last, c) := blockLines folds width (c.rest.length + 1) ⟨false, empty, false⟩ c
  return (String.ofList (text ++ blockEnd style.chomping width last c), c)

end OutcomeRelay.Yaml
