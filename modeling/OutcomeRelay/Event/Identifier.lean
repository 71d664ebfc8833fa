/-!
Event ids. An id is the clock in milliseconds or one more than the last id, whichever is larger.
Callers that share the last id read it, form a candidate and install the candidate if the last id
is still the one they read; a caller whose exchange fails tries again with what it found there.
-/

namespace OutcomeRelay.Identifier

/-- The clock as a number. A time before the epoch counts as none. -/
def reading (millis : Int64) : UInt64 :=
  UInt64.ofNat millis.toInt.toNat

/-- The id after `last`. The sum starts again at zero after the largest number. -/
def candidate (now last : UInt64) : UInt64 :=
  if last + 1 < now then now else last + 1

inductive Call where
  | fresh (now : UInt64)
  | holding (now seen : UInt64)
  | done (id : UInt64)
  deriving DecidableEq, Repr

/-- What a step of a call may do. An exchange may fail although the last id was as read. -/
inductive Move where
  | load
  | exchange (spurious : Bool)
  deriving DecidableEq, Repr

def Call.step (last : UInt64) : Call → Move → UInt64 × Call
  | .fresh now, .load => (last, .holding now last)
  | .holding now seen, .exchange spurious =>
    if seen = last ∧ !spurious then (candidate now seen, .done (candidate now seen))
    else (last, .holding now last)
  | c, _ => (last, c)

def next (now last : Nat) : Nat :=
  (candidate (.ofNat now) (.ofNat last)).toNat

def take (now : Nat) : Nat → Nat → List Nat
  | 0, _ => []
  | n + 1, last => next now last :: take now n (next now last)

def increasing : List Nat → Bool
  | a :: b :: rest => a < b && increasing (b :: rest)
  | _ => true

theorem toNat_reading (millis : Int64) : (reading millis).toNat = millis.toInt.toNat := by
  have hbound := millis.toInt_lt
  rw [reading, UInt64.toNat_ofNat_of_lt']
  rw [UInt64.size]
  omega

theorem toNat_candidate {now last : UInt64} (h : last.toNat + 1 < UInt64.size) :
    (candidate now last).toNat = max now.toNat (last.toNat + 1) := by
  have hsum : (last + 1).toNat = last.toNat + 1 := by
    rw [UInt64.toNat_add]
    exact Nat.mod_eq_of_lt h
  unfold candidate
  split
  · next hlt =>
    rw [UInt64.lt_iff_toNat_lt, hsum] at hlt
    omega
  · next hle =>
    rw [UInt64.lt_iff_toNat_lt, hsum] at hle
    omega

end OutcomeRelay.Identifier
