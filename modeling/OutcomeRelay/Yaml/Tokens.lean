import OutcomeRelay.Yaml.BlockText
import OutcomeRelay.Yaml.Layout
import OutcomeRelay.Yaml.Plain

/-!
The tokens of a YAML text. The character at a place, and at times the one after it, tells which
token begins there.
-/

namespace OutcomeRelay.Yaml
namespace Layout

def deepest : Nat := 255

def passMark? (s : Layout) : Option Layout := do
  return { s with cursor := ← s.cursor.step.pastBlanks? }

def openBracket? (isMap : Bool) (s : Layout) : Option Layout := do
  if deepest ≤ s.outerKeys.length then none
  let s := s.saveKey.addTentative
  let s := { s with keyAllowed := true, key := none, outerKeys := s.key :: s.outerKeys }
  let s ← s.passMark?
  if isMap then return { s with mapOpened := true }.push .mapOpen
  else return { s with pairs := false :: s.pairs }.push .listOpen

def closeBracket? (isMap : Bool) (s : Layout) : Option Layout := do
  let s ← s.dropKey?
  let s := match s.outerKeys with
    | k :: ks => { s with key := k, outerKeys := ks }
    | [] => s
  let s := { s with keyAllowed := false }
  let s := if isMap then s else { s.endPair with pairs := s.pairs.drop 1 }
  let s ← s.passMark?
  let s := if s.inBrackets then { s with adjacent := s.cursor.index } else s
  return s.push (if isMap then .mapClose else .listClose)

def comma? (s : Layout) : Option Layout := do
  let s ← s.dropKey?
  let s ← { s with keyAllowed := true }.endPair.passMark?
  return s.push .comma

def item? (s : Layout) : Option Layout := do
  if s.inBrackets || !s.keyAllowed then none
  let s := s.openBlock s.cursor.column .listStart none
  let dash := s.cursor.step
  let s ← s.passMark?
  let rest := s.cursor.rest
  let nested := rest.head? == some '-' && wordEnds (rest.drop 1)
  if (dash.rest.takeWhile isBlank).contains '\t' && nested then none
  let s := if rest.head?.any fun x => x == '\n' || isFlowMark x then s.addTentative else s
  let s ← s.dropKey?
  return { s with keyAllowed := true }.push .item

def keyMark? (s : Layout) : Option Layout := do
  if !s.inBrackets && !s.keyAllowed then none
  let s := s.openBlock s.cursor.column .mapStart none
  let s ← { s with mapOpened := s.mapOpened || s.inBrackets }.dropKey?
  let mark := s.cursor.step
  let c := mark.skipSpaces
  if c.index = mark.index || c.rest.head? == some '\t' then none
  return { s with cursor := c, keyAllowed := !s.inBrackets }.push .key

/-- Pass a colon. A word does not follow it behind tabs alone. -/
def passColon? (c : Cursor) : Option Cursor :=
  let c := c.step
  match c.rest with
  | '\t' :: _ => do
    let c' ← c.pastBlanks?
    let word := c'.rest.head?.any isNameChar
    if word && !(c.rest.takeWhile isBlank).contains ' ' then none else return c'
  | _ => some c

/-- The colon before a value. In a list between brackets it makes a map of one member. -/
def value? (s : Layout) : Option Layout := do
  let start := s.cursor
  let opensPair := !s.pairs.isEmpty && !s.mapOpened
  let s := { s with
    cursor := ← passColon? start
    pairs := if opensPair then true :: s.pairs.drop 1 else s.pairs }
  match s.key with
  | some k =>
    if opensPair && k.line < start.line then none
    let s := s.pushBefore k.slot .key
    let s := if opensPair then s.pushBefore k.slot .mapOpen else s
    let s := (s.openBlock k.column .mapStart (some k.slot)).addTentative
    return { s with key := none, keyAllowed := false }.push .value
  | none =>
    if !s.inBrackets && !s.keyAllowed then none
    let s := if opensPair then s.push .mapOpen else s
    let s := (s.openBlock start.column .mapStart none).addTentative
    return { s with keyAllowed := !s.inBrackets }.push .value

def keyToken? (read : Cursor → Option (Token × Cursor)) (s : Layout) : Option Layout := do
  let (t, c) ← read s.cursor
  return { s.saveKey with cursor := c, keyAllowed := false }.push t

def plain? (s : Layout) : Option Layout := do
  let s := s.saveKey.dropTentative
  let (text, c) ← Yaml.plain? s.inBrackets s.inner s.cursor
  return { s with cursor := c, keyAllowed := c.indenting }.push (.plain text)

def blockText? (folds : Bool) (s : Layout) : Option Layout := do
  let s := s.saveKey.dropTentative
  let (text, c) ← Yaml.blockText? folds s.least s.inner s.cursor
  return { s with cursor := c, keyAllowed := true }.push (.text text)

def mayFollowQuote (inBrackets sameLine : Bool) (cs : List Char) : Bool :=
  match cs with
  | [] => true
  | c :: _ =>
    c == '\n' || (c == ':' && (inBrackets || sameLine))
      || (inBrackets && (c == ',' || c == ']' || c == '\x7d'))

def quoted? (quote : Char) (s : Layout) : Option Layout := do
  let start := s.cursor
  let s := { s.saveKey with keyAllowed := false }
  let (text, c) ← Yaml.quoted? quote s.least start
  let c ← c.pastBlanks?
  if !mayFollowQuote s.inBrackets (c.line = start.line) c.rest then none
  let s ← { s with cursor := c }.toNextToken?
  return { s with adjacent := s.cursor.index }.push (.text text)

def directive? (s : Layout) : Option Layout := do
  let s ← (s.closeLevels fun _ => false).dropKey?
  let (d, c) ← Yaml.directive? s.cursor
  return { s with cursor := c, keyAllowed := false }.push (.directive d)

def documentMark? (ends : Bool) (s : Layout) : Option Layout := do
  let s ← (s.closeLevels fun _ => false).dropKey?
  let c := s.cursor.skip 3
  let s := { s with cursor := c, keyAllowed := false }
  if ends then
    let c ← c.pastBlanks?
    if lineEnds c.rest then return { s with cursor := c }.push .documentEnd else none
  else return s.push .documentStart

def endsKeyHere (s : Layout) : Bool :=
  endsKey s.inBrackets (s.cursor.rest.drop 1)
    || (s.inBrackets && s.cursor.index == s.adjacent)

def tokenAt? (x : Char) (s : Layout) : Option Layout :=
  let single := wordEnds (s.cursor.rest.drop 1)
  match x with
  | '[' => s.openBracket? false
  | '\x7b' => s.openBracket? true
  | ']' => s.closeBracket? false
  | '\x7d' => s.closeBracket? true
  | ',' => s.comma?
  | '*' => s.keyToken? fun c => (anchor? c).map fun r => (.alias r.1, r.2)
  | '&' => s.keyToken? fun c => (anchor? c).map fun r => (.anchor r.1, r.2)
  | '!' => s.keyToken? fun c => (tag? s.inBrackets c).map fun r => (.tag r.1, r.2)
  | '\'' | '"' => s.quoted? x
  | '%' | '@' | '\x60' => none
  | '-' => if single then s.item? else s.plain?
  | '?' => if single then s.keyMark? else s.plain?
  | ':' => if s.endsKeyHere then s.value? else s.plain?
  | '|' => if s.inBrackets then s.plain? else s.blockText? false
  | '>' => if s.inBrackets then s.plain? else s.blockText? true
  | _ => s.plain?

def token? (s : Layout) : Option Layout :=
  match s.cursor.rest with
  | [] => none
  | x :: cs =>
    if s.cursor.column = 0 && x == '%' then s.directive?
    else if s.cursor.column = 0 && isMarker '-' (x :: cs) then s.documentMark? false
    else if s.cursor.column = 0 && isMarker '.' (x :: cs) then s.documentMark? true
    else if s.cursor.column < s.least then none
    else s.tokenAt? x

def settle? (s : Layout) : Option Layout := do
  let s ← s.toNextToken?
  let s ← s.dropStaleKey?
  return s.closeLevels fun l => l.column ≤ s.cursor.column

def finish? (s : Layout) : Option (List Token) :=
  if (s.key :: s.outerKeys).any fun k => k.any (·.required) then none
  else some (s.closeLevels fun _ => false).slots.toList.flatten

def tokens? (s : Layout) : Option (List Token) := do
  let s' ← s.settle?
  if s'.cursor.rest.isEmpty then s'.finish?
  else
    let next ← s'.token?
    if _h : next.cursor.rest.length < s.cursor.rest.length then next.tokens? else none
termination_by s.cursor.rest.length

end Layout

def tokens? (text : String) : Option (List Token) :=
  (Layout.ofText text).tokens?

end OutcomeRelay.Yaml
