import OutcomeRelay.Binary.Basic
import OutcomeRelay.Text.Digits

/-!
Reading a decimal text as the nearest number of a binary format. A sign may stand before it; the
digits may have one point and an exponent, and there is a word for each number that is not finite.
-/

namespace OutcomeRelay.Binary

def lower (cs : List Char) : List Char :=
  cs.map Char.toLower

/-- Ten to a power beyond this is infinite, or nothing, in every format at hand. -/
def farthestPower : Int := 400

def ofScientific (f : BinaryFormat) (negative : Bool) (n : Nat) (e : Int) : Binary :=
  let magnitude : Int := e + (Nat.toDigits 10 n).length
  if n = 0 ∨ magnitude < -farthestPower then .finite negative 0 f.least
  else if farthestPower < magnitude then .infinite negative
  else ofQuotient f negative (n * Nat.pow 10 e.toNat) (Nat.pow 10 (-e).toNat)

def exponent? : List Char → Option Int
  | [] => some 0
  | c :: cs => if c = 'e' ∨ c = 'E' then Text.signed? cs else none

def unsigned? (f : BinaryFormat) (negative : Bool) (cs : List Char) : Option Binary := do
  let whole := cs.takeWhile Char.isDigit
  let rest := cs.dropWhile Char.isDigit
  let tail := match rest with
    | '.' :: tail => tail
    | _ => []
  let fraction := tail.takeWhile Char.isDigit
  let after := match rest with
    | '.' :: tail => tail.dropWhile Char.isDigit
    | _ => rest
  let n ← Text.digits? (whole ++ fraction)
  let e ← exponent? after
  return ofScientific f negative n (e - fraction.length)

def magnitude? (f : BinaryFormat) (negative : Bool) (cs : List Char) : Option Binary :=
  let word := String.ofList (lower cs)
  if word = "inf" ∨ word = "infinity" then some (.infinite negative)
  else if word = "nan" then some .nan
  else unsigned? f negative cs

def ofText? (f : BinaryFormat) (s : String) : Option Binary :=
  match s.toList with
  | '-' :: cs => magnitude? f true cs
  | '+' :: cs => magnitude? f false cs
  | cs => magnitude? f false cs

end OutcomeRelay.Binary
