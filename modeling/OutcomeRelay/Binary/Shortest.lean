import OutcomeRelay.Binary.Basic

/-!
The shortest decimal that reads back. `shortest` takes the coarsest decimal grid that meets the
interval of reals which round to a number, and on it the point nearest to the number. Two layouts
write the digits: plain positional text, and the text of numbers inside JSON. They also differ on
a number midway between two points of its grid.
-/

namespace OutcomeRelay.Binary

/-- Which of two points of a grid stands for a number midway between them. -/
inductive Tie where
  | even
  | up
  deriving DecidableEq, Repr

structure Scientific where
  coefficient : Nat
  exponent : Int
  deriving DecidableEq, Repr

def alignedLeft (a : Nat) (g t : Int) : Nat :=
  a * Nat.pow 10 g.toNat * Nat.pow 2 (-t).toNat

def alignedRight (b : Nat) (g t : Int) : Nat :=
  b * Nat.pow 2 t.toNat * Nat.pow 10 (-g).toNat

def floorLogTen (num den : Nat) : Int :=
  if den ≤ num then (Nat.toDigits 10 (num / den)).length - 1
  else -((Nat.toDigits 10 ((den + num - 1) / num - 1)).length : Int)

/-- Four times the interval of reals that round to `m * 2 ^ e`, in units of `2 ^ (e - 2)`. -/
structure Neighbourhood where
  low : Nat
  middle : Nat
  high : Nat
  closed : Bool

def neighbourhood (f : BinaryFormat) (m : Nat) (e : Int) : Neighbourhood where
  low := if m = Nat.pow 2 (f.precision - 1) ∧ f.least < e then 4 * m - 1 else 4 * m - 2
  middle := 4 * m
  high := 4 * m + 2
  closed := m % 2 = 0

def Neighbourhood.holds (n : Neighbourhood) (t : Int) (c : Nat) (g : Int) : Bool :=
  let v := alignedLeft c g t
  let lo := alignedRight n.low g t
  let hi := alignedRight n.high g t
  if n.closed then lo ≤ v && v ≤ hi else lo < v && v < hi

def Tie.takesUpper (tie : Tie) (lower : Nat) : Bool :=
  match tie with
  | .even => lower % 2 == 1
  | .up => true

def Neighbourhood.onGrid (n : Neighbourhood) (tie : Tie) (t g : Int) : Option Nat :=
  let whole := alignedRight n.middle g t
  let unit := alignedLeft 1 g t
  let lower := whole / unit
  let below := n.holds t lower g
  let above := n.holds t (lower + 1) g
  let rest := 2 * (whole % unit)
  let upperFirst := unit < rest || (unit == rest && tie.takesUpper lower)
  if below && above then some (if upperFirst then lower + 1 else lower)
  else if below then some lower
  else if above then some (lower + 1)
  else none

def Neighbourhood.search (h : Neighbourhood) (tie : Tie) (t : Int) : Nat → Int → Scientific
  | 0, g => ⟨h.middle, g⟩
  | n + 1, g =>
    match h.onGrid tie t g with
    | some c => ⟨c, g⟩
    | none => h.search tie t n (g - 1)

def shortest (tie : Tie) (f : BinaryFormat) (m : Nat) (e : Int) : Scientific :=
  let q := quotient m e
  (neighbourhood f m e).search tie (e - 2) 18 (floorLogTen q.1 q.2 + 1)

def Scientific.positional (s : Scientific) : List Char :=
  let ds := Nat.toDigits 10 s.coefficient
  if 0 ≤ s.exponent then ds ++ List.replicate s.exponent.toNat '0'
  else
    let places := (-s.exponent).toNat
    if ds.length ≤ places then
      '0' :: '.' :: (List.replicate (places - ds.length) '0' ++ ds)
    else ds.take (ds.length - places) ++ '.' :: ds.drop (ds.length - places)

def Scientific.exponential (s : Scientific) : List Char :=
  let ds := Nat.toDigits 10 s.coefficient
  let e : Int := s.exponent + ds.length - 1
  let tail := ds.drop 1
  ds.take 1 ++ (if tail.isEmpty then [] else '.' :: tail)
    ++ 'e' :: (if e < 0 then '-' else '+') :: Nat.toDigits 10 e.natAbs

def digits (tie : Tie) (f : BinaryFormat) (m : Nat) (e : Int) : Scientific :=
  if m = 0 then ⟨0, 0⟩ else shortest tie f m e

def withSign (negative : Bool) (cs : List Char) : String :=
  String.ofList (if negative then '-' :: cs else cs)

/-- Positional text of any length, never an exponent; ties go up. -/
def plain (f : BinaryFormat) : Binary → String
  | .finite s m e => withSign s (digits .up f m e).positional
  | .infinite s => withSign s ['i', 'n', 'f']
  | .nan => "NaN"

/-- The text of a number in JSON: positional from 1e-5 up to 1e16 with at least one fraction digit,
and with an exponent beyond; ties go to the even point. -/
def jsonText (f : BinaryFormat) : Binary → String
  | .finite s m e =>
    let d := digits .even f m e
    let magnitude : Int := d.exponent + (Nat.toDigits 10 d.coefficient).length - 1
    if m = 0 then withSign s ['0', '.', '0']
    else if -5 ≤ magnitude ∧ magnitude < 16 then
      withSign s (d.positional ++ if 0 ≤ d.exponent then ['.', '0'] else [])
    else withSign s d.exponential
  | _ => "null"

end OutcomeRelay.Binary
