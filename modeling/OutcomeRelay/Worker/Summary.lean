import OutcomeRelay.Delivery.Run

/-!
What a queue worker tells when it stops: how its deliveries ended, by count. A delivery whose task
was cut off, or panicked, counts as aborted.
-/

namespace OutcomeRelay

inductive DeliveryEnd where
  | settled (outcome : DeliveryOutcome)
  | panicked (message : String)
  | cutOff
  deriving DecidableEq, Repr

/-- A panic of a task, as it is told of; `<n>` stands for the number of the task. -/
def taskPanic (message : String) : String :=
  s!"task <n> panicked with message {Text.quoted message}"

structure WorkerSummary where
  queue : String
  acked : Nat := 0
  deadLettered : Nat := 0
  ackFailed : Nat := 0
  aborted : Nat := 0
  reconnects : Nat := 0
  deriving DecidableEq, Repr

namespace WorkerSummary

def record (s : WorkerSummary) : DeliveryEnd → WorkerSummary
  | .settled (.acked _) => { s with acked := s.acked + 1 }
  | .settled (.deadLettered _) => { s with deadLettered := s.deadLettered + 1 }
  | .settled (.ackFailed _) => { s with ackFailed := s.ackFailed + 1 }
  | .panicked _ | .cutOff => { s with aborted := s.aborted + 1 }

def recordLog (s : WorkerSummary) : DeliveryEnd → List Log.Entry
  | .panicked m =>
    [Log.error .dispatcher "Delivery task panicked"
      [("queue", .shown s.queue), ("error", .shown (taskPanic m))]]
  | _ => []

def total (s : WorkerSummary) : Nat :=
  s.acked + s.deadLettered + s.ackFailed + s.aborted

def stoppedLog (s : WorkerSummary) : Log.Entry :=
  Log.info .dispatcher "Queue worker stopped"
    [("queue", .shown s.queue), ("acked", Log.nat s.acked),
      ("dead_lettered", Log.nat s.deadLettered), ("ack_failed", Log.nat s.ackFailed),
      ("aborted", Log.nat s.aborted)]

theorem total_record (s : WorkerSummary) (e : DeliveryEnd) :
    (s.record e).total = s.total + 1 := by
  rcases e with o | m | _
  · cases o <;> simp only [record, total] <;> omega
  · simp only [record, total]
    omega
  · simp only [record, total]
    omega

end WorkerSummary
end OutcomeRelay
