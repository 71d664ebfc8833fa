import OutcomeRelay.Worker.Summary

/-!
The worker of a queue. It takes a free slot, then a delivery, and handles deliveries side by side,
at most one for each slot. When its stream fails it opens a new one, waiting longer each time. After a
request to shut down it takes nothing more in, lets running deliveries finish for a grace period,
cuts off the rest and closes its consumer.

A phase waits for inputs from outside; an input that a phase does not wait for is no step.
-/

namespace OutcomeRelay

namespace Worker

inductive Phase where
  | gathering
  | seekingSlot
  | receiving
  | backingOff (attempt : Nat) (delay : Duration) (waits : Backoff)
  | reopening (attempt : Nat) (waits : Backoff)
  | replacing
  | cancelling
  | draining
  | aborting
  | closing
  | stopped
  deriving DecidableEq, Repr

/-- What a worker is told. Where a phase also looks whether a shutdown was requested, the input says
what it saw. -/
inductive Input where
  | join
  | look (shutdown : Bool)
  | slotFree
  | shutdown
  | delivered (id : Nat)
  | streamFailed (error : BusError)
  | streamEnded (shutdown : Bool)
  | waited (shutdown : Bool)
  | consumed (answer : Except BusError Unit)
  | replaced
  | cancelled (answer : Except BusError Unit)
  | drained
  | graceElapsed
  | closed (answer : Except BusError Unit)
  | taskEnded (id : Nat) (result : DeliveryEnd)

end Worker

structure Worker where
  queue : String
  slots : Nat
  grace : Duration
  phase : Worker.Phase := .gathering
  running : List Nat := []
  ended : List (Nat × DeliveryEnd) := []
  summary : WorkerSummary
  deriving DecidableEq, Repr

namespace Worker

def start (queue : String) (slots : Nat) (grace : Duration) : Worker :=
  { queue, slots, grace, summary := { queue } }

def queueField (w : Worker) : String × Log.Field :=
  ("queue", .shown w.queue)

def backOff (w : Worker) (attempt : Nat) (waits : Backoff) : Worker × List Log.Entry :=
  match ReconnectSchedule.consumer.nextWait? waits with
  | some (delay, waits') => ({ w with phase := .backingOff attempt delay waits' }, [])
  | none =>
    ({ w with phase := .cancelling },
      [Log.error .dispatcher "Giving up on consumer reconnection" [w.queueField]])

def join (w : Worker) : Option (Worker × List Log.Entry) :=
  match w.ended with
  | [] => none
  | (_, e) :: rest =>
    some ({ w with ended := rest, summary := w.summary.record e }, w.summary.recordLog e)

def failureLog (w : Worker) (message : String) : Except BusError Unit → List Log.Entry
  | .ok _ => []
  | .error e => [Log.warn .dispatcher message [w.queueField, ("error", .shown e.message)]]

def toPhase (w : Worker) (p : Phase) : Option (Worker × List Log.Entry) :=
  some ({ w with phase := p }, [])

/-- The end of a running delivery frees its slot; the delivery is counted later. -/
def endTask (w : Worker) (id : Nat) (result : DeliveryEnd) : Worker :=
  { w with running := w.running.erase id, ended := w.ended ++ [(id, result)] }

def graceLog (w : Worker) : Log.Entry :=
  Log.warn .dispatcher "Grace period elapsed, aborting in-flight deliveries"
    [w.queueField, ("remaining", Log.nat (w.running.length + w.ended.length)),
      ("grace_secs", Log.nat w.grace.seconds)]

def step (w : Worker) (input : Input) : Option (Worker × List Log.Entry) :=
  match w.phase, input with
  | .gathering, .join | .draining, .join | .aborting, .join => w.join
  | .gathering, .look shutdown =>
    if w.ended ≠ [] then none
    else if shutdown then w.toPhase .cancelling
    else w.toPhase .seekingSlot
  | .seekingSlot, .shutdown | .receiving, .shutdown | .backingOff .., .shutdown =>
    w.toPhase .cancelling
  | .seekingSlot, .slotFree =>
    if w.running.length < w.slots then w.toPhase .receiving else none
  | .receiving, .delivered id =>
    some ({ w with phase := .gathering, running := w.running ++ [id] }, [])
  | .receiving, .streamFailed e =>
    let next := w.backOff 1 ReconnectSchedule.consumer.backoff
    some (next.1, Log.warn .dispatcher "Consumer stream failed, reconnecting"
      [w.queueField, ("error", .shown e.message)] :: next.2)
  | .receiving, .streamEnded shutdown =>
    if shutdown then w.toPhase .cancelling
    else
      let next := w.backOff 1 ReconnectSchedule.consumer.backoff
      some (next.1,
        Log.warn .dispatcher "Consumer stream ended, reconnecting" [w.queueField] :: next.2)
  | .backingOff n _ waits, .waited shutdown =>
    w.toPhase (if shutdown then .cancelling else .reopening n waits)
  | .reopening n _, .consumed (.ok _) =>
    some ({ w with phase := .replacing },
      [Log.info .dispatcher "Consumer re-established" [w.queueField, ("attempt", Log.nat n)]])
  | .reopening n waits, .consumed (.error e) =>
    let next := w.backOff (n + 1) waits
    some (next.1, Log.warn .dispatcher "Failed to re-establish consumer"
      [w.queueField, ("attempt", Log.nat n), ("error", .shown e.message)] :: next.2)
  | .replacing, .replaced =>
    some ({ w with
      phase := .gathering
      summary := { w.summary with reconnects := w.summary.reconnects + 1 } }, [])
  | .cancelling, .cancelled r =>
    some ({ w with phase := .draining }, w.failureLog "Failed to cancel consumer" r)
  | .draining, .drained | .aborting, .drained =>
    if w.running = [] ∧ w.ended = [] then w.toPhase .closing else none
  | .draining, .graceElapsed =>
    if w.running = [] then none else some ({ w with phase := .aborting }, [w.graceLog])
  | .closing, .closed r =>
    some ({ w with phase := .stopped },
      w.failureLog "Failed to close consumer" r ++ [w.summary.stoppedLog])
  | _, .taskEnded id result =>
    if id ∈ w.running then some (w.endTask id result, []) else none
  | _, _ => none

end Worker
end OutcomeRelay
