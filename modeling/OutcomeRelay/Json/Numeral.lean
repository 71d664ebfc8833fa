import OutcomeRelay.Json.Value
import OutcomeRelay.Text.Utf8

/-!
Numerals: the lexical form of JSON numbers and the numbers they denote. A numeral with a fraction
or an exponent, or too large for 64 bits, denotes the binary number got from its first digits, as
many as fit 64 bits, by one multiplication or division by a power of ten.
-/

namespace OutcomeRelay.Json

inductive Cause where
  | malformed
  | truncated
  deriving DecidableEq, Repr, Inhabited

structure Numeral where
  negative : Bool
  whole : List Nat
  fraction : List Nat
  exponent : Option (Bool × List Nat)
  deriving DecidableEq, Repr

namespace Numeral

def isDigit (b : UInt8) : Bool :=
  0x30 ≤ b && b ≤ 0x39

def digit (b : UInt8) : Nat :=
  b.toNat - 0x30

def run : Bytes → List Nat × Bytes
  | [] => ([], [])
  | b :: bs => if isDigit b then (digit b :: (run bs).1, (run bs).2) else ([], b :: bs)

def someRun (bs : Bytes) : Except Cause (List Nat × Bytes) :=
  match bs with
  | [] => .error .truncated
  | b :: _ => if isDigit b then .ok (run bs) else .error .malformed

def scanWhole (bs : Bytes) : Except Cause (List Nat × Bytes) :=
  match bs with
  | [] => .error .truncated
  | b :: rest =>
    if b = 0x30 then
      match rest with
      | c :: _ => if isDigit c then .error .malformed else .ok ([0], rest)
      | [] => .ok ([0], rest)
    else if isDigit b then .ok (run bs)
    else .error .malformed

def scanFraction (bs : Bytes) : Except Cause (List Nat × Bytes) :=
  match bs with
  | 0x2E :: rest => someRun rest
  | _ => .ok ([], bs)

def scanExponent (bs : Bytes) : Except Cause (Option (Bool × List Nat) × Bytes) :=
  match bs with
  | b :: rest =>
    if b = 0x65 ∨ b = 0x45 then
      match rest with
      | 0x2B :: rest' => (someRun rest').map fun r => (some (false, r.1), r.2)
      | 0x2D :: rest' => (someRun rest').map fun r => (some (true, r.1), r.2)
      | _ => (someRun rest).map fun r => (some (false, r.1), r.2)
    else .ok (none, bs)
  | [] => .ok (none, bs)

def scan (bs : Bytes) : Except Cause (Numeral × Bytes) := do
  let (negative, bs) := match bs with
    | 0x2D :: rest => (true, rest)
    | _ => (false, bs)
  let (whole, bs) ← scanWhole bs
  let (fraction, bs) ← scanFraction bs
  let (exponent, bs) ← scanExponent bs
  return (⟨negative, whole, fraction, exponent⟩, bs)

def ofDigits (ds : List Nat) : Nat :=
  ds.foldl (fun n d => 10 * n + d) 0

/-- Take digits into a 64-bit number while they fit, and count those left over. -/
def take64 : Nat → List Nat → Nat × Nat
  | n, [] => (n, 0)
  | n, d :: ds => if 10 * n + d < UInt64.size then take64 (10 * n + d) ds else (n, ds.length + 1)

/-- `x * 10 ^ e` with at most `fuel` divisions by the largest power; none beyond the finite. -/
def scaleTen (x : Binary) (e : Int) : Nat → Option Binary
  | 0 => some x
  | fuel + 1 =>
    if e.natAbs ≤ 308 then
      let power := Binary.ofNat .double (Nat.pow 10 e.natAbs)
      if 0 ≤ e then
        let y := Binary.mul .double x power
        if y.isFinite then some y else none
      else some (Binary.div .double x power)
    else if x.isZero then some x
    else if 0 ≤ e then none
    else scaleTen (Binary.div .double x (Binary.ofNat .double (Nat.pow 10 308))) (e + 308) fuel

def toFloat (n : Numeral) : Option Binary :=
  let (w, surplus) := take64 0 n.whole
  let (s, unused) := take64 w n.fraction
  let shift : Int := match n.exponent with
    | none => 0
    | some (true, ds) => -(ofDigits ds : Int)
    | some (false, ds) => ofDigits ds
  let places : Int := n.fraction.length - unused
  (scaleTen (Binary.ofNat .double s) ((surplus : Int) - places + shift) 8).map fun x =>
    if n.negative then x.neg else x

def toNumber (n : Numeral) : Except Cause Number :=
  let w := ofDigits n.whole
  let float : Except Cause Number := match n.toFloat with
    | some x => .ok (.float x)
    | none => .error .malformed
  if n.fraction ≠ [] ∨ n.exponent ≠ none then float
  else if n.negative then
    if 0 < w ∧ w ≤ UInt64.size / 2 then .ok (.negative w) else float
  else if w < UInt64.size then .ok (.natural w)
  else float

end Numeral
end OutcomeRelay.Json
