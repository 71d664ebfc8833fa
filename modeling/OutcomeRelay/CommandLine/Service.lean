import OutcomeRelay.CommandLine.Arguments
import OutcomeRelay.Config.Load
import OutcomeRelay.Connection.Address
import OutcomeRelay.Connection.Attempts
import OutcomeRelay.Simulation.Session

/-!
The service behind the command line, on the broker in memory. It loads and checks its
configuration, connects, declares its topology, and then consumes until it is interrupted or
publishes one event; at the end it closes the broker, whatever came before. A remote broker cannot
be reached from here.
-/

namespace OutcomeRelay.CommandLine

open Simulation

inductive Failure where
  | arguments (error : ArgumentError)
  | load (error : LoadError)
  | config (fault : ConfigFault)
  | broker (error : BusError)
  | dispatch (error : DispatchError)
  | noEventFile (name : String)
  | eventText (error : Json.Error)
  | event (error : EventError)
  | publish (error : PublishError)

structure Finished where
  log : List Log.Entry
  result : Except Failure Unit

def unreachable : BusError :=
  .connection "Failed to connect: no network"

def openBroker (c : MessagingConfig) : Except BusError (List Log.Entry) :=
  match c.type with
  | .memory => .ok [c.type.initializedLog]
  | .amqp => .error unreachable

def connect (c : MessagingConfig) : List Log.Entry × Except BusError Unit :=
  let address := Address.redact c.amqp.url
  let attempts := Connection.atStartup fun _ => (openBroker c).mapError BusError.message
  match attempts.result with
  | .ok log => (log ++ [Connection.connectedLog "broker" address], .ok ())
  | .error reason =>
    ([Connection.failedLog "broker" attempts.count reason], .error unreachable)

def consumingLog (workers : Nat) : List Log.Entry :=
  [Log.info .program "payment-relay consuming" [("workers", Log.nat workers)],
    Log.info .program "Shutting down..." []]

def summaryLog (s : WorkerSummary) : Log.Entry :=
  Log.info .program "Queue summary"
    [("queue", .shown s.queue), ("acked", Log.nat s.acked),
      ("dead_lettered", Log.nat s.deadLettered), ("aborted", Log.nat s.aborted)]

/-- Consume both work queues; the interrupt comes as soon as they are consumed. -/
def consume (c : Config) (simulateFailure : Bool) (s : Session) :
    Session × Except Failure Unit :=
  match HandlerRegistry.standard c.topology simulateFailure with
  | .error e => (s, .error (.dispatch e))
  | .ok registry =>
    let (s, opened) := s.run (.dispatcher {
      handlers := registry.entries.map fun h => (h.1, .logging h.2)
      config := .ofConsumers c.topology c.consumers
      remote := none })
    match opened with
    | .workers n =>
      let (s, stopped) := (s.say (consumingLog n)).run .shutdown
      match stopped with
      | .summaries ss => (s.say (ss.map summaryLog), .ok ())
      | _ => (s, .ok ())
    | .dispatchFailed e => (s, .error (.dispatch e))
    | _ => (s, .ok ())

def flush (s : Session) : Session :=
  s.mapWorld fun w => { w with log := w.log ++ w.monitorLog, monitorLog := [] }

def publishedLog (r : Receipt) (s : Publisher.MonitorSummary) : Log.Entry :=
  Log.info .program "Outcome published"
    [("message_id", .shown r.messageId), ("target", .shown r.target.text),
      ("attempts", Log.nat r.attempts), ("acked", Log.nat s.acked),
      ("returned", Log.nat s.returned)]

def undeliveredLog (e : OutcomeEvent) (error : PublishError) : Log.Entry :=
  Log.error .program "Outcome not delivered; persist for manual replay"
    [("order_id", .shown e.orderId), ("error", .shown error.message)]

def publisherName : String :=
  "publisher"

def publishEvent (c : Config) (e : OutcomeEvent) (s : Session) : Session × Except Failure Unit :=
  let (s, _) := s.run (.publisher publisherName c.publisher none (.monitor .start))
  let (s, reply) :=
    s.run (.publish publisherName (.event e (.byStatus c.topology.routes)) false)
  let (s, closing) := s.run (.dropPublisher publisherName)
  let s := flush s
  match reply, closing with
  | .published (.ok r), .monitored summary => (s.say [publishedLog r summary], .ok ())
  | .published (.error err), _ => (s.say [undeliveredLog e err], .error (.publish err))
  | _, _ => (s, .ok ())

def readEvent (sources : Config.Sources) (file : String) : Except Failure OutcomeEvent :=
  match sources.file? file with
  | none => .error (.noEventFile file)
  | some raw =>
    match OutcomeEvent.decode? raw with
    | .error e => .error (.eventText e)
    | .ok e =>
      match e.validate with
      | .error err => .error (.event err)
      | .ok _ => .ok e

def act (sources : Config.Sources) (c : Config) (s : Session) :
    Action → Session × Except Failure Unit
  | .consume simulateFailure => consume c simulateFailure s
  | .publish file =>
    match readEvent sources file with
    | .error e => (s, .error e)
    | .ok e => publishEvent c e s

def topologyLog (e : BusError) : Log.Entry :=
  Log.error .program "Topology declaration failed" [("error", .shown e.message)]

def serve (sources : Config.Sources) (c : Config) (action : Action) (s : Session) : Finished :=
  let (s, declared) := s.run (.declare c.topology.topology)
  match declared with
  | .failed e => ⟨s.world.log ++ [topologyLog e], .error (.broker e)⟩
  | _ =>
    let (s, result) := act sources c s action
    let (s, _) := s.run .closeBroker
    ⟨s.world.log, result⟩

def start (sources : Config.Sources) (unique : String) (c : Config) (action : Action) : Finished :=
  match c.validate with
  | .error f => ⟨[], .error (.config f)⟩
  | .ok _ =>
    match connect c.messaging with
    | (log, .error e) => ⟨log, .error (.broker e)⟩
    | (log, .ok _) => serve sources c action { world := { unique, log } }

def loadFailedLog (e : LoadError) : Log.Entry :=
  Log.error .program s!"Failed to load configuration: {e.message}" []

def run (sources : Config.Sources) (unique : String) (arguments : List String) : Finished :=
  match parse arguments with
  | .error e => ⟨[Log.error .program e.message []], .error (.arguments e)⟩
  | .ok invocation =>
    match Config.load sources invocation.configPath with
    | .error e => ⟨[loadFailedLog e], .error (.load e)⟩
    | .ok c => start sources unique c invocation.action

end OutcomeRelay.CommandLine
