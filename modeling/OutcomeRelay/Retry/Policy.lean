import OutcomeRelay.Duration

/-!
Retry settings of a queue and the policy that sound settings make. A policy allows at least one
attempt and its first wait is no longer than its longest.
-/

namespace OutcomeRelay

structure RetryConfig where
  maxAttempts : Nat := 3
  initialIntervalMs : Nat := 5000
  multiplier : Binary := Binary.ofNat .single 1
  maxIntervalMs : Nat := 10000
  deriving DecidableEq, Repr

inductive RetryFault where
  | noAttempts
  | shrinking
  | initialExceedsMax
  deriving DecidableEq, Repr

def RetryFault.reason : RetryFault → String
  | .noAttempts => "max_attempts must be at least 1"
  | .shrinking => "multiplier must be >= 1.0"
  | .initialExceedsMax => "initial_interval_ms exceeds max_interval_ms"

structure RetryPolicy where
  maxAttempts : Nat
  initialInterval : Duration
  multiplier : Binary
  maxInterval : Duration
  maxAttempts_pos : 0 < maxAttempts
  initial_le_max : initialInterval ≤ maxInterval
  deriving DecidableEq, Repr

namespace RetryConfig

def grows (c : RetryConfig) : Bool :=
  c.multiplier.isFinite && !Binary.lt c.multiplier (Binary.ofNat .single 1)

def toPolicy? (c : RetryConfig) : Except RetryFault RetryPolicy :=
  if attempts : c.maxAttempts = 0 then .error .noAttempts
  else if !c.grows then .error .shrinking
  else if order : c.maxIntervalMs < c.initialIntervalMs then .error .initialExceedsMax
  else .ok {
    maxAttempts := c.maxAttempts
    initialInterval := .ofMillis c.initialIntervalMs
    multiplier := c.multiplier
    maxInterval := .ofMillis c.maxIntervalMs
    maxAttempts_pos := Nat.pos_of_ne_zero attempts
    initial_le_max := Nat.mul_le_mul_right _ (Nat.le_of_not_lt order) }

end RetryConfig

def RetryPolicy.standard : RetryPolicy where
  maxAttempts := 3
  initialInterval := .ofSeconds 5
  multiplier := Binary.ofNat .single 1
  maxInterval := .ofSeconds 10
  maxAttempts_pos := by decide
  initial_le_max := by decide

end OutcomeRelay
