import OutcomeRelay.Yaml.Cursor

/-!
Scalars in quotes. One line break inside reads as a space and several read as one break less; the
blanks around line breaks are dropped. Every line after the first is indented deep enough.
-/

namespace OutcomeRelay.Yaml

def shortEscapes : List (Char × Nat) :=
  [('0', 0), ('a', 7), ('b', 8), ('t', 9), ('\t', 9), ('n', 10), ('v', 11), ('f', 12), ('r', 13),
    ('e', 27), (' ', 32), ('"', 34), ('/', 47), ('\\', 92), ('N', 0x85), ('_', 0xA0), ('L', 0x2028),
    ('P', 0x2029)]

def hexValue (c : Char) : Option Nat :=
  if c.isDigit then some (c.toNat - '0'.toNat)
  else if 'a' ≤ c ∧ c ≤ 'f' then some (c.toNat - 'a'.toNat + 10)
  else if 'A' ≤ c ∧ c ≤ 'F' then some (c.toNat - 'A'.toNat + 10)
  else none

def codePoint (ds : List Char) : Option Char := do
  let n := (← ds.mapM hexValue).foldl (fun n d => 16 * n + d) 0
  if n.isValidChar then return Char.ofNat n else none

def codeWidth : Char → Option Nat
  | 'x' => some 2
  | 'u' => some 4
  | 'U' => some 8
  | _ => none

def escape : List Char → Option (Char × Nat)
  | [] => none
  | c :: cs =>
    match codeWidth c with
    | some width =>
      if cs.length < width then none
      else (codePoint (cs.take width)).map fun x => (x, width + 1)
    | none => (shortEscapes.lookup c).map fun n => (Char.ofNat n, 1)

def tabsFit (least : Nat) : Bool → Nat → List Char → Bool
  | _, _, [] => true
  | begun, column, c :: cs =>
    if c == '\n' then tabsFit least true 0 cs
    else !(c == '\t' && begun && column < least) && tabsFit least begun (column + 1) cs

/-- The text of a gap, and the place behind it. The line after it is indented by `least` or more and
is no mark of a document. -/
def gap? (least : Nat) (escaped : Bool) (c : Cursor) : Option (List Char × Cursor) :=
  let blanks := c.rest.takeWhile fun x => isBlank x || x == '\n'
  let breaks := blanks.count '\n'
  let c' := c.skip blanks.length
  let text :=
    if escaped then List.replicate breaks '\n' else if breaks = 0 then blanks else folded breaks
  if !tabsFit least escaped 0 blanks || c'.atMarker || c'.column < least then none
  else some (text, c')

def quotedFrom? (quote : Char) (least : Nat) : Nat → Cursor → Option (List Char × Cursor)
  | 0, _ => none
  | fuel + 1, c =>
    match c.rest with
    | [] => none
    | x :: cs =>
      if x == quote && quote == '\'' && cs.head? == some quote then do
        let (text, after) ← quotedFrom? quote least fuel (c.skip 2)
        return (quote :: text, after)
      else if x == quote then some ([], c.step)
      else if x == '\\' && quote == '"' then
        if cs.head? == some '\n' then do
          let next := c.skip 2
          let (blanks, next) ←
            if next.rest.head? == some quote then some ([], next) else gap? least true next
          let (text, after) ← quotedFrom? quote least fuel next
          return (blanks ++ text, after)
        else do
          let (y, width) ← escape cs
          let (text, after) ← quotedFrom? quote least fuel (c.skip (width + 1))
          return (y :: text, after)
      else if isBlank x || x == '\n' then do
        let (blanks, next) ← gap? least false c
        let (text, after) ← quotedFrom? quote least fuel next
        return (blanks ++ text, after)
      else do
        let (text, after) ← quotedFrom? quote least fuel c.step
        return (x :: text, after)

def quoted? (quote : Char) (least : Nat) (c : Cursor) : Option (String × Cursor) := do
  let (text, after) ← quotedFrom? quote least c.rest.length c.step
  return (String.ofList text, after)

end OutcomeRelay.Yaml
