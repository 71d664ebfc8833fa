import OutcomeRelay.Decimal.Basic
import OutcomeRelay.Text.Digits

/-!
Reading decimal amounts. Digits may be parted by underscores and have one point; fraction digits
beyond the mantissa or the scale are dropped, rounding half up on the first character of them. Text
that is no such number is tried as one of these with a power of ten behind it.
-/

namespace OutcomeRelay.Decimal

structure Progress where
  mantissa : Nat
  scale : Nat
  point : Bool
  seen : Bool

def filler (point : Bool) : List Char → Bool
  | [] => true
  | c :: cs =>
    if c.isDigit || c == '_' then filler point cs
    else if c == '.' && point then filler false cs
    else false

/-- Round on the first dropped digit. A mantissa that grows too large loses one more digit. -/
def roundUp (negative : Bool) (mantissa scale digit : Nat) : Option Decimal :=
  if digit < 5 then ofParts? negative mantissa scale
  else if mantissa + 1 < mantissaLimit then ofParts? negative (mantissa + 1) scale
  else if scale = 0 then none
  else ofParts? negative ((mantissa + 5) / 10) (scale - 1)

def dropRest (negative : Bool) (p : Progress) (c : Char) (cs : List Char) : Option Decimal :=
  let digit := if c.isDigit then some (Text.digitValue c) else if c == '_' then some 0 else none
  if filler true cs then digit.bind (roundUp negative p.mantissa p.scale) else none

def readDigits (negative : Bool) (p : Progress) : List Char → Option Decimal
  | [] => if p.seen then ofParts? negative p.mantissa p.scale else none
  | c :: cs =>
    if p.point && p.scale == 28 then dropRest negative p c cs
    else if c.isDigit then
      let next := 10 * p.mantissa + Text.digitValue c
      if next < mantissaLimit then
        readDigits negative ⟨next, if p.point then p.scale + 1 else p.scale, p.point, true⟩ cs
      else if p.point then dropRest negative p c cs
      else none
    else if c == '.' && !p.point then readDigits negative { p with point := true } cs
    else if c == '_' && p.seen then readDigits negative p cs
    else none

def start : Progress :=
  ⟨0, 0, false, false⟩

def ofPlain? : List Char → Option Decimal
  | '-' :: cs => readDigits true start cs
  | '+' :: cs => readDigits false start cs
  | cs => readDigits false start cs

def power? : List Char → Option Nat
  | '+' :: cs => Text.digits? cs
  | cs => Text.digits? cs

/-- `d` times ten to the `n`. The scale shrinks first; what is left multiplies the mantissa. -/
def raise (d : Decimal) (n : Nat) : Option Decimal :=
  if n ≤ d.scale then ofParts? d.negative d.mantissa (d.scale - n)
  else if n ≤ 28 then ofParts? d.negative (d.mantissa * Nat.pow 10 (n - d.scale)) 0
  else none

def rounded (mantissa n : Nat) : Nat :=
  let step := Nat.pow 10 n
  (mantissa + step / 2) / step

/-- `d` by ten to the `n`. The scale grows; places beyond the greatest scale are rounded away, and
the sign stays even if only zeros are left. -/
def lower (d : Decimal) (n : Nat) : Option Decimal :=
  let surplus := d.scale + n - 28
  if n ≤ 28 then withSign? d.negative (rounded d.mantissa surplus) (d.scale + n - surplus) else none

def ofScientific? (cs : List Char) : Option Decimal :=
  let isMark (c : Char) : Bool := c == 'e' || c == 'E'
  match cs.dropWhile (fun c => !isMark c) with
  | [] => none
  | _ :: exponent =>
    match ofPlain? (cs.takeWhile fun c => !isMark c), exponent with
    | none, _ => none
    | some d, '-' :: n => (power? n).bind d.lower
    | some d, n => (power? n).bind d.raise

def ofChars? (cs : List Char) : Option Decimal :=
  (ofPlain? cs).or (ofScientific? cs)

def ofText? (s : String) : Option Decimal :=
  ofChars? s.toList

end OutcomeRelay.Decimal
