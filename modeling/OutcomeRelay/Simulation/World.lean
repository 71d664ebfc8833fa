import OutcomeRelay.Publisher.Monitor
import OutcomeRelay.Simulation.Script
import OutcomeRelay.Worker.Dispatcher

/-!
A simulated world: a broker in memory, a clock in milliseconds, and tasks. A task that can go on
stands in the run queue, which is served in order; a task that waits for time has a timer, and
timers that are due at one instant fire in the order in which they were set.
-/

namespace OutcomeRelay.Simulation

abbrev Instant := Nat

/-- The task of a delivery. A phase that waits for time holds the instant of its end; a phase whose
end never comes holds none. -/
structure DeliveryTask where
  owner : Option Nat
  job : DeliveryRun.Job
  handler : Handler
  settler : Settler
  phase : Option DeliveryRun.Phase := none
  wait : Option (Option Instant) := none
  cut : Bool := false
  deriving Repr

/-- The task of a queue worker. One that waits for its queue holds the epoch that it saw. -/
structure WorkerTask where
  worker : Worker
  handler : Handler
  policy : RetryPolicy
  prefetch : Nat
  tag : String
  stream : Stream
  spare : Option (Except BusError Stream) := none
  wait : Option Instant := none
  seen : Option Nat := none
  shutdown : Bool := false
  deriving Repr

structure PublishTask where
  publisher : Nat
  message : Outbound
  sending : Publisher.Sending
  wait : Option Instant := none
  deriving Repr

structure OpeningTask where
  grace : Duration
  scripted : Bool
  opening : Dispatcher.Opening Handler (Stream × String)
  wait : Option Instant := none
  pending : Option StreamScript := none

inductive Task where
  | delivery (t : DeliveryTask)
  | worker (t : WorkerTask)
  | publish (t : PublishTask)
  | opening (t : OpeningTask)

inductive TaskResult where
  | processed (outcome : DeliveryOutcome)
  | published (result : Except PublishError Receipt)
  | worked (result : Except String WorkerSummary)
  | opened (result : Except DispatchError (List Nat))

inductive Listener where
  | collector (confirms : List ConfirmSignal) (returns : List ReturnSignal)
  | monitor (m : Publisher.Monitor)
  | absent

structure PendingConfirm where
  due : Instant
  message : Outbound
  resolution : Publisher.Resolution

structure SentMessage where
  time : Instant
  message : Outbound
  deriving DecidableEq, Repr

structure PublisherState where
  config : PublisherConfig
  script : Option (List ScriptedSend)
  listener : Listener
  sent : List SentMessage := []
  pending : List PendingConfirm := []
  background : List Nat := []
  dropped : Bool := false

structure World where
  now : Instant := 0
  broker : Broker := {}
  remote : RemoteBroker := {}
  tasks : List (Nat × Task) := []
  results : List (Nat × TaskResult) := []
  lastTask : Nat := 0
  ready : List Nat := []
  timers : List (Instant × Nat) := []
  waiting : List Nat := []
  publishers : List (Nat × PublisherState) := []
  unique : String := ""
  invocations : List Invocation := []
  records : List DeadLetterRecord := []
  settled : List RemoteCall := []
  lastRecord : Option DeadLetterRecord := none
  log : List Log.Entry := []
  monitorLog : List Log.Entry := []

namespace World

def say (w : World) (entries : List Log.Entry) : World :=
  { w with log := w.log ++ entries }

def task? (w : World) (id : Nat) : Option Task :=
  w.tasks.lookup id

/-- Put a task behind those that can go on, unless it is among them. -/
def wake (w : World) (id : Nat) : World :=
  if w.ready.contains id then w else { w with ready := w.ready ++ [id] }

def setTask (w : World) (id : Nat) (t : Task) : World :=
  { w with tasks := w.tasks.map fun p => if p.1 == id then (id, t) else p }

def park (w : World) (id : Nat) (t : Task) : World :=
  { w.setTask id t with ready := w.ready.filter (· != id) }

def finish (w : World) (id : Nat) (r : TaskResult) : World :=
  { w with
    tasks := w.tasks.filter fun p => p.1 != id
    ready := w.ready.filter (· != id)
    results := w.results ++ [(id, r)] }

/-- A new task, which is to run after those that can go on already. -/
def spawn (w : World) (t : Task) : World × Nat :=
  let id := w.lastTask + 1
  ({ w with lastTask := id, tasks := w.tasks ++ [(id, t)], ready := w.ready ++ [id] }, id)

def dueAfter (w : World) (d : Duration) : Instant :=
  w.now + Duration.ceilMillis d

def setTimer (w : World) (due : Instant) (id : Nat) : World :=
  if due ≤ w.now then w else { w with timers := w.timers ++ [(due, id)] }

/-- Wake the workers whose queue has seen something new since they looked, in the order in which
they began to wait. -/
def wakeWaiting (w : World) : World :=
  let isStale (id : Nat) : Bool := match w.task? id with
    | some (.worker t) => match t.stream, t.seen with
      | .memory c, some e => (w.broker.queue? c.queue).any fun q => q.epoch != e
      | _, _ => true
    | _ => true
  (w.waiting.filter isStale).foldl wake { w with waiting := w.waiting.filter fun i => !isStale i }

def publisher? (w : World) (id : Nat) : Option PublisherState :=
  w.publishers.lookup id

def setPublisher (w : World) (id : Nat) (p : PublisherState) : World :=
  { w with publishers := w.publishers.map fun q => if q.1 == id then (id, p) else q }

end World
end OutcomeRelay.Simulation
