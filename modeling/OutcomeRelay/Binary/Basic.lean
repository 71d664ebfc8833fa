/-!
Binary floating point in exact arithmetic. A finite number is a mantissa times a power of two, and
every operation rounds its exact rational result to the nearest number of a format, ties to even.
-/

namespace OutcomeRelay

structure BinaryFormat where
  precision : Nat
  least : Int
  greatest : Int

def BinaryFormat.single : BinaryFormat := ⟨24, -149, 104⟩

def BinaryFormat.double : BinaryFormat := ⟨53, -1074, 971⟩

inductive Binary where
  | finite (negative : Bool) (mantissa : Nat) (exponent : Int)
  | infinite (negative : Bool)
  | nan
  deriving DecidableEq, Repr, Inhabited

namespace Binary

/-- A quotient rounded to the nearest whole number, a half to the even neighbour. -/
def roundQuotient (num den : Nat) : Nat :=
  let q := num / den
  let r := num % den
  if 2 * r < den then q
  else if den < 2 * r then q + 1
  else if q % 2 = 0 then q else q + 1

def floorLog (num den : Nat) : Int :=
  let k : Int := (Nat.log2 num : Int) - Nat.log2 den
  if den * Nat.pow 2 k.toNat ≤ num * Nat.pow 2 (-k).toNat then k else k - 1

def scaleQuotient (num den : Nat) (e : Int) : Nat × Nat :=
  (num * Nat.pow 2 (-e).toNat, den * Nat.pow 2 e.toNat)

def ofQuotient (f : BinaryFormat) (negative : Bool) (num den : Nat) : Binary :=
  if num = 0 ∨ den = 0 then .finite negative 0 f.least
  else
    let e := max f.least (floorLog num den - ((f.precision : Int) - 1))
    let scaled := scaleQuotient num den e
    let m := roundQuotient scaled.1 scaled.2
    let (m, e) := if m = Nat.pow 2 f.precision then (m / 2, e + 1) else (m, e)
    if f.greatest < e then .infinite negative else .finite negative m e

def ofNat (f : BinaryFormat) (n : Nat) : Binary :=
  ofQuotient f false n 1

def ofInt (f : BinaryFormat) (n : Int) : Binary :=
  ofQuotient f (n < 0) n.natAbs 1

def neg : Binary → Binary
  | .finite s m e => .finite (!s) m e
  | .infinite s => .infinite (!s)
  | .nan => .nan

def isZero : Binary → Bool
  | .finite _ m _ => m == 0
  | _ => false

def isFinite : Binary → Bool
  | .finite .. => true
  | _ => false

def quotient (m : Nat) (e : Int) : Nat × Nat :=
  (m * Nat.pow 2 e.toNat, Nat.pow 2 (-e).toNat)

def convert (f : BinaryFormat) : Binary → Binary
  | .finite s m e => ofQuotient f s (quotient m e).1 (quotient m e).2
  | x => x

def mul (f : BinaryFormat) : Binary → Binary → Binary
  | .finite s m e, .finite s' m' e' =>
    ofQuotient f (s != s') ((quotient m e).1 * (quotient m' e').1)
      ((quotient m e).2 * (quotient m' e').2)
  | .nan, _ | _, .nan => .nan
  | .infinite s, .finite s' m _ | .finite s' m _, .infinite s =>
    if m = 0 then .nan else .infinite (s != s')
  | .infinite s, .infinite s' => .infinite (s != s')

def div (f : BinaryFormat) : Binary → Binary → Binary
  | .finite s m e, .finite s' m' e' =>
    if m' = 0 then (if m = 0 then .nan else .infinite (s != s'))
    else
      ofQuotient f (s != s') ((quotient m e).1 * (quotient m' e').2)
        ((quotient m e).2 * (quotient m' e').1)
  | .nan, _ | _, .nan => .nan
  | .infinite s, .finite s' _ _ => .infinite (s != s')
  | .finite s _ _, .infinite s' => .finite (s != s') 0 f.least
  | .infinite _, .infinite _ => .nan

def fraction (s : Bool) (m : Nat) (e : Int) : Int × Nat :=
  ((if s then -1 else 1) * ((quotient m e).1 : Int), (quotient m e).2)

def add (f : BinaryFormat) : Binary → Binary → Binary
  | .finite s m e, .finite s' m' e' =>
    let a := fraction s m e
    let b := fraction s' m' e'
    let n := a.1 * b.2 + b.1 * a.2
    ofQuotient f (if n = 0 then s && s' else n < 0) n.natAbs (a.2 * b.2)
  | .nan, _ | _, .nan => .nan
  | .infinite s, .infinite s' => if s = s' then .infinite s else .nan
  | .infinite s, _ | _, .infinite s => .infinite s

/-- `x < y` for numbers; nothing compares with what is not one. -/
def lt : Binary → Binary → Bool
  | .finite s m e, .finite s' m' e' =>
    let a := fraction s m e
    let b := fraction s' m' e'
    a.1 * b.2 < b.1 * a.2
  | .infinite s, .finite .. => s
  | .finite .., .infinite s => !s
  | .infinite s, .infinite s' => s && !s'
  | .nan, _ | _, .nan => false

end Binary
end OutcomeRelay
