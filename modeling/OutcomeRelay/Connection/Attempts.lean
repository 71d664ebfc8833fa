import OutcomeRelay.Log
import OutcomeRelay.Retry.Backoff

/-!
The first connection to a service: failed attempts are repeated while the schedule gives waits.
-/

namespace OutcomeRelay.Connection

structure Attempts (α : Type) where
  count : Nat
  result : Except String α

/-- Connect, where `attempt n` is the result of the `n`-th attempt. The waits are what is left of
the schedule, and the fuel bounds their number. -/
def connect {α : Type} (s : ReconnectSchedule) (attempt : Nat → Except String α) :
    Nat → Nat → Backoff → Attempts α
  | 0, n, _ => ⟨n, attempt n⟩
  | fuel + 1, n, waits =>
    match attempt n with
    | .ok a => ⟨n, .ok a⟩
    | .error e =>
      match s.nextWait? waits with
      | none => ⟨n, .error e⟩
      | some (_, waits') => connect s attempt fuel (n + 1) waits'

def atStartup {α : Type} (attempt : Nat → Except String α) : Attempts α :=
  let s := ReconnectSchedule.connection
  connect s attempt (s.times.getD 0 + 1) 1 s.backoff

def connectedLog (service address : String) : Log.Entry :=
  Log.info .connection s!"Connected to {service} at {address}" []

def failedLog (service : String) (attempts : Nat) (reason : String) : Log.Entry :=
  Log.error .connection s!"Failed to connect to {service} after {attempts} attempts: {reason}" []

end OutcomeRelay.Connection
