import OutcomeRelay.Yaml.Quoted

/-!
Tags, which name the type of a node by a handle and a suffix, and directives, which stand before a
document and may say what a handle is short for.
-/

namespace OutcomeRelay.Yaml

structure Tag where
  handle : String
  suffix : String
  deriving DecidableEq, Repr

inductive Directive where
  | version
  | handle (name short : String)
  deriving DecidableEq, Repr

def isUriChar (c : Char) : Bool :=
  c.isAlphanum || "#;/?:@&=+$,-_.!~*'()[]%".toList.contains c

def isTagChar (c : Char) : Bool :=
  isUriChar c && !isFlowMark c && c != '!'

def octet? : List Char → Option Nat
  | '%' :: a :: b :: _ => do return 16 * (← hexValue a) + (← hexValue b)
  | _ => none

def octets? (b : Nat) : Option Nat :=
  if b < 0x80 then some 1
  else if 0xC0 ≤ b ∧ b < 0xE0 then some 2
  else if 0xE0 ≤ b ∧ b < 0xF0 then some 3
  else if 0xF0 ≤ b ∧ b < 0xF8 then some 4
  else none

/-- A character written as escaped bytes. The bytes are the digits of its code point as they are. -/
def escapedChar? (cs : List Char) : Option (Char × Nat) := do
  let first ← octet? cs
  let count ← octets? first
  let rest ← (List.range (count - 1)).mapM fun i => octet? (cs.drop (3 * (i + 1)))
  if rest.any fun b => b < 0x80 || 0xC0 ≤ b then none
  let n := rest.foldl (fun n b => 256 * n + b) first
  if n.isValidChar then return (Char.ofNat n, 3 * count) else none

def uri? (allowed : Char → Bool) : Nat → Cursor → Option (List Char × Cursor)
  | 0, c => some ([], c)
  | fuel + 1, c =>
    match c.rest with
    | [] => some ([], c)
    | x :: _ =>
      if !allowed x then some ([], c)
      else do
        let (y, width) ← if x == '%' then escapedChar? c.rest else some (x, 1)
        let (more, after) ← uri? allowed fuel (c.skip width)
        return (y :: more, after)

def handle? (c : Cursor) : Option (List Char × Cursor) :=
  match c.rest with
  | '!' :: cs =>
    let name := cs.takeWhile isNameChar
    let mark := (cs.drop name.length).take 1
    let text := '!' :: name ++ if mark = ['!'] then mark else []
    some (text, c.skip text.length)
  | _ => none

def isNamedHandle (handle : List Char) : Bool :=
  1 < handle.length && handle.getLast? == some '!'

def fullTag? (c : Cursor) : Option (Tag × Cursor) := do
  let (text, after) ← uri? isUriChar c.rest.length (c.skip 2)
  if after.rest.head? != some '>' then none
  return (⟨"", String.ofList text⟩, after.step)

def shortTag? (c : Cursor) : Option (Tag × Cursor) := do
  let (handle, c) ← handle? c
  let (text, after) ← uri? isTagChar c.rest.length c
  if isNamedHandle handle then
    if text.isEmpty then none else return (⟨String.ofList handle, String.ofList text⟩, after)
  match handle.drop 1 ++ text with
  | [] => return (⟨"", "!"⟩, after)
  | suffix => return (⟨"!", String.ofList suffix⟩, after)

def tag? (inBrackets : Bool) (c : Cursor) : Option (Tag × Cursor) := do
  let (tag, after) ← if (c.rest.drop 1).head? == some '<' then fullTag? c else shortTag? c
  if wordEnds after.rest || (inBrackets && after.rest.head?.any isFlowMark) then
    return (tag, after)
  else none

def isAnchorChar (c : Char) : Bool :=
  !isBlank c && c != '\n' && c != '\ufeff' && !isFlowMark c

def anchor? (c : Cursor) : Option (String × Cursor) :=
  let name := c.step.rest.takeWhile isAnchorChar
  if name.isEmpty then none else some (String.ofList name, c.step.skip name.length)

def versionPart? (c : Cursor) : Option Cursor :=
  let digits := c.rest.takeWhile Char.isDigit
  if digits.isEmpty || 9 < digits.length then none else some (c.skip digits.length)

def version? (c : Cursor) : Option (Directive × Cursor) := do
  let c ← versionPart? (c.skipWhile isBlank)
  if c.rest.head? != some '.' then none
  return (.version, ← versionPart? c.step)

def handleDirective? (c : Cursor) : Option (Directive × Cursor) := do
  let (handle, c) ← handle? (c.skipWhile isBlank)
  if handle ≠ ['!'] ∧ !isNamedHandle handle then none
  let c := c.skipWhile isBlank
  let first ← c.rest.head?
  let (lead, c) ←
    if first == '!' then some (['!'], c.step)
    else if !isTagChar first then none
    else some ([], c)
  let (text, c) ← uri? isUriChar c.rest.length c
  if !wordEnds c.rest then none
  return (.handle (String.ofList handle) (String.ofList (lead ++ text)), c)

/-- A directive from its mark to the end of its line. One of a name unknown says nothing. -/
def directive? (c : Cursor) : Option (Directive × Cursor) := do
  let name := c.step.rest.takeWhile isNameChar
  let c := c.step.skip name.length
  if name.isEmpty || !wordEnds c.rest then none
  let (directive, c) ← match String.ofList name with
    | "YAML" => version? c
    | "TAG" => handleDirective? c
    | _ => some (.handle "" "", c.skipLine)
  let c ← c.pastBlanks?
  if lineEnds c.rest then return (directive, c.step) else none

end OutcomeRelay.Yaml
