import OutcomeRelay.Binary.Basic

/-!
Lengths of time in whole nanoseconds, and their product with a binary number, which goes through
seconds of 24 bits and is rounded to the nearest nanosecond.
-/

namespace OutcomeRelay

abbrev Duration := Nat

namespace Duration

def perSecond : Nat :=
  1000000000

def perMilli : Nat :=
  1000000

def ofMillis (n : Nat) : Duration :=
  n * perMilli

def ofSeconds (n : Nat) : Duration :=
  n * perSecond

def millis (d : Duration) : Nat :=
  d / perMilli

def seconds (d : Duration) : Nat :=
  d / perSecond

def ceilMillis (d : Duration) : Nat :=
  (d + perMilli - 1) / perMilli

def longest : Duration :=
  UInt64.size * perSecond - 1

def toSingle (d : Duration) : Binary :=
  let whole := Binary.ofNat .single (d / perSecond)
  let rest := Binary.ofNat .single (d % perSecond)
  Binary.add .single whole (Binary.div .single rest (Binary.ofNat .single perSecond))

/-- A number of seconds to the nearest nanosecond; the longest length if there is no such length. -/
def ofBinary : Binary → Duration
  | .finite s m e =>
    let q := Binary.quotient m e
    if s && m != 0 then longest
    else min longest (Binary.roundQuotient (q.1 * perSecond) q.2)
  | _ => longest

def scale (factor : Binary) (d : Duration) : Duration :=
  ofBinary (Binary.mul .single factor d.toSingle)

end Duration
end OutcomeRelay
