import OutcomeRelay.Broker.Basic
import OutcomeRelay.Handler.Logging
import OutcomeRelay.Publisher.Signal
import OutcomeRelay.Worker.Basic

/-!
Scripts for what surrounds the relay in a simulation: handlers that end as told, a transport that
confirms as told, and a broker whose streams play a list of events.
-/

namespace OutcomeRelay.Simulation

/-- How a scripted invocation goes: it waits, then ends, or never ends. One that ends early does so
before it could have waited. -/
structure ScriptedOutcome where
  delay : Duration := 0
  early : Bool := false
  result : Option HandlerResult := some .done
  deriving DecidableEq, Repr

namespace ScriptedOutcome

def duration? (o : ScriptedOutcome) (immediate : Bool) : Option Duration :=
  if o.early || immediate then some 0
  else o.result.map fun _ => o.delay

end ScriptedOutcome

structure HandlerScript where
  usual : List ScriptedOutcome := []
  byOrder : List (String × List ScriptedOutcome) := []
  immediate : Bool := false
  timed : Bool := true
  deriving DecidableEq, Repr

/-- The outcome of the given attempt; the last of a list stands for all that follow. -/
def outcomeAt (outcomes : List ScriptedOutcome) (attempt : Nat) : ScriptedOutcome :=
  (outcomes[attempt - 1]?).getD ((outcomes.getLast?).getD {})

def HandlerScript.outcome (s : HandlerScript) (m : PaymentMessage) : ScriptedOutcome :=
  let outcomes := match m.orderId?.bind (s.byOrder.lookup ·) with
    | some os => os
    | none => s.usual
  outcomeAt outcomes m.attempt

inductive Handler where
  | logging (handler : LoggingHandler)
  | scripted (script : HandlerScript)
  deriving DecidableEq, Repr

structure Invocation where
  message : PaymentMessage
  time : Option Nat
  deriving Repr

inductive ScriptedSend where
  | unreachable (error : BusError)
  | hang
  | confirm (delay : Duration) (resolution : Publisher.Resolution)
  deriving DecidableEq, Repr

structure Settlement where
  delay : Duration := 0
  panic : Option String := none
  failure : Option BusError := none
  deriving DecidableEq, Repr

inductive StreamAction where
  | deliver (delivery : Delivery) (settlement : Settlement)
  | fail (error : BusError)
  | finish
  | panic (message : String)
  deriving DecidableEq, Repr

structure StreamEvent where
  delay : Duration := 0
  action : StreamAction
  deriving DecidableEq, Repr

structure StreamScript where
  delay : Duration := 0
  failure : Option BusError := none
  events : List StreamEvent := []
  cancelFails : Option BusError := none
  closeFails : Option BusError := none
  deriving DecidableEq, Repr

inductive RemoteCall where
  | consume (tag : String) (prefetch : Nat)
  | cancel
  | close
  | ack (tag : Nat)
  | reject (tag : Nat)
  | requeue (tag : Nat)
  deriving DecidableEq, Repr

structure RemoteBroker where
  scripts : List (String × List StreamScript) := []
  calls : List (String × RemoteCall) := []
  deriving DecidableEq, Repr

namespace RemoteBroker

def note (b : RemoteBroker) (queue : String) (call : RemoteCall) : RemoteBroker :=
  { b with calls := b.calls ++ [(queue, call)] }

def exhausted : BusError :=
  .subscribe "script is over"

def next (b : RemoteBroker) (queue : String) : RemoteBroker × StreamScript :=
  match b.scripts.lookup queue with
  | some (s :: rest) =>
    ({ b with scripts := b.scripts.map fun p => if p.1 == queue then (queue, rest) else p }, s)
  | _ => (b, { failure := some exhausted })

end RemoteBroker

inductive Stream where
  | memory (consumer : Consumer)
  | scripted (queue : String) (script : StreamScript)
  deriving DecidableEq, Repr

def failureOf : Option BusError → Except BusError Unit
  | some e => .error e
  | none => .ok ()

inductive Settler where
  | memory
  | scripted (settlement : Settlement)
  | inline (failure : Option BusError)
  deriving DecidableEq, Repr

end OutcomeRelay.Simulation
