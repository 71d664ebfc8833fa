import OutcomeRelay.Timestamp.Basic
import OutcomeRelay.Text.Blank

/-!
Reading timestamps: date, a `T`, `t` or space, time, and a zone. Parts may have one digit and blanks
before them, fraction digits beyond the ninth are cut, and the zone is `Z`, `UTC` or an offset.
-/

namespace OutcomeRelay.Timestamp

open Text

def number? (most : Nat) (cs : List Char) : Option (Nat × List Char) :=
  let ds := (cs.take most).takeWhile Char.isDigit
  if ds.isEmpty then none else some (digitsValue ds, cs.drop ds.length)

def part? (cs : List Char) : Option (Nat × List Char) :=
  number? 2 (trimStart cs)

def mark? (c : Char) (cs : List Char) : Option (List Char) :=
  match trimStart cs with
  | d :: rest => if c = d then some rest else none
  | [] => none

/-- A year: up to four digits, or a sign and any number of them. -/
def year? (cs : List Char) : Option (Int × List Char) :=
  match trimStart cs with
  | '-' :: rest => (number? rest.length rest).map fun r => (-(r.1 : Int), r.2)
  | '+' :: rest => (number? rest.length rest).map fun r => ((r.1 : Int), r.2)
  | rest => (number? 4 rest).map fun r => ((r.1 : Int), r.2)

def fraction? : List Char → Option (Nat × List Char)
  | '.' :: rest =>
    let ds := rest.takeWhile Char.isDigit
    let kept := ds.take 9
    if ds.isEmpty then none
    else some (digitsValue (kept ++ List.replicate (9 - kept.length) '0'), rest.drop ds.length)
  | cs => some (0, cs)

/-- Hours and minutes of an offset, in minutes; colons and blanks may part them. -/
def offsetDigits? : List Char → Option (Nat × List Char)
  | a :: b :: rest =>
    if a.isDigit && b.isDigit then
      match rest.dropWhile (fun c => c == ':' || isBlank c) with
      | c :: d :: rest' =>
        if c.isDigit && d.isDigit && digitValue c < 6 then
          some (digitsValue [a, b] * 60 + digitsValue [c, d], rest')
        else none
      | _ => none
    else none
  | _ => none

def zone? (cs : List Char) : Option (Int × List Char) :=
  match cs with
  | 'Z' :: rest | 'z' :: rest => some (0, rest)
  | '+' :: rest => (offsetDigits? rest).map fun r => ((r.1 : Int), r.2)
  | '-' :: rest | '\u2212' :: rest => (offsetDigits? rest).map fun r => (-(r.1 : Int), r.2)
  | a :: b :: c :: rest =>
    if [a, b, c].map Char.toLower = ['u', 't', 'c'] then some (0, rest) else none
  | _ => none

def date? (cs : List Char) : Option (Date × List Char) := do
  let (year, cs) ← year? cs
  let (month, cs) ← part? (← mark? '-' cs)
  let (day, cs) ← part? (← mark? '-' cs)
  return (⟨year, month, day⟩, cs)

def parting? : List Char → Option (List Char)
  | 'T' :: rest | 't' :: rest | ' ' :: rest => some rest
  | _ => none

/-- A time of a day as a clock shows it, where second 60 is a leap second. -/
def time? (date : Date) (cs : List Char) : Option (Timestamp × List Char) := do
  let (hour, cs) ← part? cs
  let (minute, cs) ← part? (← mark? ':' cs)
  let (second, cs) ← part? (← mark? ':' cs)
  let (nano, cs) ← fraction? cs
  if second < 60 then return (⟨date, hour, minute, second, nano⟩, cs)
  else if second = 60 then return (⟨date, hour, minute, 59, 1000000000 + nano⟩, cs)
  else none

def ofChars? (cs : List Char) : Option Timestamp := do
  let (date, cs) ← date? cs
  let (seen, cs) ← time? date (← parting? cs)
  let (offset, cs) ← zone? (trimStart cs)
  let t := seen.ofLocal offset
  if (trimStart cs).isEmpty ∧ offset.natAbs < 1440 ∧ seen.Valid ∧ t.Valid then some t else none

def ofText? (s : String) : Option Timestamp :=
  ofChars? s.toList

end OutcomeRelay.Timestamp
