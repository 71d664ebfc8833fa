import OutcomeRelay.Yaml.Quoted

/-!
Plain scalars. They run to a comment, to a colon that ends a key or, between brackets, to a mark of
the brackets, and go on in lines that are indented deep enough.
-/

namespace OutcomeRelay.Yaml

def endsKey (inBrackets : Bool) (cs : List Char) : Bool :=
  wordEnds cs || (inBrackets && cs.head?.any isFlowMark)

def isPlainNext (inBrackets : Bool) : List Char → Bool
  | [] => false
  | c :: cs =>
    !(isBlank c || c == '\n' || (c == ':' && endsKey inBrackets cs) || (inBrackets && isFlowMark c))

def plainRun (inBrackets : Bool) : List Char → List Char
  | [] => []
  | c :: cs => if isPlainNext inBrackets (c :: cs) then c :: plainRun inBrackets cs else []

/-- The line breaks of a gap in a plain scalar, and the place behind it. A tab may stand left of
column `least` only on a line that goes on with nothing but a comment. -/
def plainGap? (least : Nat) (breaks : Nat) (c : Cursor) : Option (Nat × Cursor) :=
  match _h : c.rest with
  | [] => some (breaks, c)
  | x :: _ =>
    if x == '\n' then plainGap? least (breaks + 1) c.step
    else if x == '\t' && 0 < breaks && c.column < least then do
      let c' ← c.pastBlanks?
      if lineEnds c'.rest then plainGap? least breaks c.step.skipLine else none
    else if isBlank x then plainGap? least breaks c.step
    else some (breaks, c)
termination_by c.rest.length
decreasing_by all_goals
  simp only [Cursor.skipLine, Cursor.skipWhile, Cursor.length_skip, Cursor.length_step, _h,
    List.length_cons]; omega

def endsAfterGap (inBrackets : Bool) (least : Nat) (c : Cursor) : Bool :=
  (!inBrackets && c.column < least) || c.atMarker || c.rest.head? == some '#'

def plainFrom? (inBrackets : Bool) (least : Nat) :
    Nat → List Char → Cursor → Option (List Char × Cursor)
  | 0, _, _ => none
  | fuel + 1, before, c => do
    if inBrackets && c.rest.head? == some '-' && (c.rest.drop 1).head?.any isFlowMark then none
    let run := plainRun inBrackets c.rest
    let text := if run.isEmpty then [] else before ++ run
    let c := c.skip run.length
    if !c.rest.isEmpty && wordEnds c.rest then
      let (breaks, next) ← plainGap? least 0 c
      if endsAfterGap inBrackets least next then return (text, next)
      let blanks := if breaks = 0 then c.rest.takeWhile isBlank else folded breaks
      let (more, after) ← plainFrom? inBrackets least fuel blanks next
      return (text ++ more, after)
    else return (text, c)

def plain? (inBrackets : Bool) (least : Nat) (c : Cursor) : Option (String × Cursor) := do
  if inBrackets && c.column < least then none
  let (text, after) ← plainFrom? inBrackets least (c.rest.length + 1) [] c
  return (String.ofList text, after)

end OutcomeRelay.Yaml
