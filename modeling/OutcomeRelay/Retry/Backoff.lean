import OutcomeRelay.Retry.Policy

/-!
Waits between attempts. A backoff holds the next wait and how many are left; each wait is the one
before it, grown while it is below the longest, and never above the longest.
-/

namespace OutcomeRelay

/-- Waits that are still to come. No count left means that there is no end to them. -/
structure Backoff where
  upcoming : Duration
  remaining : Option Nat
  deriving DecidableEq, Repr

namespace Backoff

def after (grow : Duration → Duration) (longest d : Duration) : Duration :=
  min (if d < longest then grow d else d) longest

def next? (grow : Duration → Duration) (longest : Duration) (b : Backoff) :
    Option (Duration × Backoff) :=
  match b.remaining with
  | some 0 => none
  | some (n + 1) => some (b.upcoming, ⟨after grow longest b.upcoming, some n⟩)
  | none => some (b.upcoming, ⟨after grow longest b.upcoming, none⟩)

def take (grow : Duration → Duration) (longest : Duration) :
    Nat → Backoff → List Duration × Backoff
  | 0, b => ([], b)
  | n + 1, b =>
    match b.next? grow longest with
    | none => ([], b)
    | some (d, b') => (d :: (take grow longest n b').1, (take grow longest n b').2)

def more (b : Backoff) : Bool :=
  b.remaining != some 0

end Backoff

namespace RetryPolicy

def backoff (p : RetryPolicy) : Backoff :=
  ⟨p.initialInterval, some (p.maxAttempts - 1)⟩

def grow (p : RetryPolicy) : Duration → Duration :=
  Duration.scale p.multiplier

def nextWait? (p : RetryPolicy) (b : Backoff) : Option (Duration × Backoff) :=
  b.next? p.grow p.maxInterval

end RetryPolicy

structure ReconnectSchedule where
  least : Duration
  most : Duration
  times : Option Nat
  deriving DecidableEq, Repr

namespace ReconnectSchedule

def connection : ReconnectSchedule :=
  ⟨.ofMillis 100, .ofSeconds 5, some 30⟩

def consumer : ReconnectSchedule :=
  ⟨.ofMillis 500, .ofSeconds 30, none⟩

def backoff (s : ReconnectSchedule) : Backoff :=
  ⟨s.least, s.times⟩

def jitterBound (d : Duration) : Duration :=
  2 * d

def nextWait? (s : ReconnectSchedule) (b : Backoff) : Option (Duration × Backoff) :=
  b.next? (2 * ·) s.most

end ReconnectSchedule
end OutcomeRelay
