import OutcomeRelay.Simulation.Session
import OutcomeRelay.Topology.Json

/-!
Scenarios: the commands of a session, and the scripts they hold, in JSON. A command is an object
that names what to do; what it does not say has a default.
-/

namespace OutcomeRelay.Simulation

open Json

inductive ScenarioError where
  | value (error : Json.Error)
  | unknownCommand

structure Fresh where
  time : Timestamp
  id : String

namespace Scenario

def delayAt (v : Value) (key : String) : Duration :=
  .ofMillis (v.natAt key 0)

def busError (v : Value) : BusError :=
  let text := v.textAt "text"
  match v.textAt "kind" with
  | "Connection" => .connection text
  | "Channel" => .channel text
  | "Publish" => .publish text
  | "Subscribe" => .subscribe text
  | "Topology" => .topology text
  | _ => .ack text

def busErrorAt? (v : Value) (key : String) : Option BusError :=
  (v.given? key).map busError

def errorChain : List String → ErrorChain
  | [] => { text := "" }
  | t :: ts => { text := t, sources := ts }

def handlerError : Value → ErrorChain
  | .array vs => errorChain (vs.map fun v => v.string?.getD "")
  | v => { text := v.string?.getD "" }

def panicText? (v : Value) : Option (Option String) :=
  match v.given? "panic" with
  | some p => some (some (p.string?.getD ""))
  | none =>
    if v.flagAt "panic_static" false then some (some "static panic text")
    else (v.given? "panic_any").map fun _ => none

def outcome (v : Value) : ScriptedOutcome :=
  let delay := delayAt v "delay_ms"
  match v, v.given? "err", panicText? v with
  | .string "stuck", _, _ => { result := none }
  | .string _, _, _ => {}
  | _, some e, _ => { delay, result := some (.failed (handlerError e)) }
  | _, none, some p => { delay, early := v.flagAt "early" false, result := some (.panicked p) }
  | _, none, none => { delay }

def loggingHandler (kind : String) (simulate : Bool) : LoggingHandler :=
  ⟨if kind = "failed" then .failed else .success, simulate⟩

def handler (v : Value) : Handler :=
  match v.textAt? "logging" with
  | some kind => .logging (loggingHandler kind (v.flagAt "simulate" false))
  | none => .scripted {
      usual := (v.itemsAt "default").map outcome
      byOrder := (v.member "orders").members.map fun m => (m.1, m.2.items.map outcome)
      immediate := v.flagAt "fn" false
      timed := v.flagAt "clock" true }

def delivery (v : Value) (queue : String) : Delivery where
  queue := (v.textAt? "queue").getD queue
  exchange := v.textAt "exchange"
  routingKey := v.textAt "routing_key"
  tag := v.natAt "tag" 1
  body := v.bodyOf
  messageId := v.textAt? "message_id"
  redelivered := v.flagAt "redelivered" false
  deathCount := v.natAt? "death_count"

def returned (v : Value) : Returned where
  code := v.natAt "code" 0
  text := v.textAt "text"
  exchange := v.textAt "exchange"
  routingKey := v.textAt "routing_key"
  messageId := v.textAt? "message_id"
  body := v.bodyOf

def send (v : Value) : ScriptedSend :=
  let delay := delayAt v "delay_ms"
  match v.textAt "do" with
  | "unreachable" => .unreachable (busError v)
  | "hang" => .hang
  | "nack" => .confirm delay (.confirmed (.nack (v.textAt? "cause")))
  | "returned" => .confirm delay (.confirmed (.returned (returned v)))
  | "confirm_error" => .confirm delay (.failed (busError v))
  | _ => .confirm delay (.confirmed .ack)

def streamAction (queue : String) (v : Value) : StreamAction :=
  match v.given? "deliver", busErrorAt? v "error", v.given? "panic" with
  | some d, _, _ => .deliver (delivery d queue) {
      delay := delayAt v "settle_ms"
      panic := v.textAt? "settle_panics"
      failure := busErrorAt? v "settle_fails" }
  | _, some e, _ => .fail e
  | _, _, some p => .panic (p.string?.getD "")
  | _, _, _ => .finish

def stream (queue : String) (v : Value) : StreamScript where
  delay := delayAt v "delay_ms"
  failure := busErrorAt? v "fail"
  events := (v.itemsAt "recv").map fun e =>
    { delay := delayAt e "delay_ms", action := streamAction queue e }
  cancelFails := busErrorAt? v "cancel_fails"
  closeFails := busErrorAt? v "close_fails"

def outbound (v : Value) : Outbound where
  exchange := v.textAt "exchange"
  routingKey := v.textAt "routing_key"
  body := v.bodyOf
  messageId := v.textAt "message_id"
  contentType := (v.textAt? "content_type").getD Publisher.contentType
  mandatory := v.flagAt "mandatory" true

def listener (v : Value) : Listener :=
  match v.textAt "signals" with
  | "monitor" => .monitor .start
  | "drop" => .absent
  | _ => .collector [] []

def target (v : Value) (routes : OutcomeRoutes) : RoutingTarget :=
  match v.member "target" with
  | .array [.string e, .string k] => ⟨e, k⟩
  | .string "success" => routes.success
  | _ => routes.failed

def settingsAt {α : Type} (v : Value) (key : String) (read : Document → Except Json.Error α)
    (default : α) : Except Json.Error α :=
  match v.given? key with
  | none => .ok default
  | some x => read (.ofValue x)

def publish (v : Value) (payload : OutcomeRoutes → Except Json.Error Payload) :
    Except Json.Error Command := do
  let names ← TopologyNames.ofMember v
  return .publish (v.textAt "publisher") (← payload names.routes) (v.flagAt "background" false)

def event (v : Value) (destination : OutcomeRoutes → Destination) : Except Json.Error Command :=
  publish v fun routes => do
    return .event (← OutcomeEvent.ofValue? (v.member "event")) (destination routes)

def notice (fresh : Fresh) (v : Value) : Except Json.Error Command :=
  publish v fun routes => do
    let n ← match v.member "notice" with
      | .string s => pure ⟨s, fresh.time⟩
      | n => FailureNotice.ofValue? n
    return .notice n fresh.id (target v routes)

def dispatcherConfig (v : Value) : Except Json.Error DispatcherConfig :=
  match v.given? "consumers" with
  | none => .ok {}
  | some c => do
    let names ← TopologyNames.ofMember v
    return .ofConsumers names (← ConsumersConfig.read Settings.json (.ofValue c))

def withQueue (c : DispatcherConfig) (m : String × Value) :
    Except Json.Error DispatcherConfig :=
  (QueueConfig.read Settings.json (.ofValue m.2)).map (c.withQueue m.1)

def withGrace (v : Value) (c : DispatcherConfig) : DispatcherConfig :=
  match v.natAt? "grace_ms" with
  | some ms => { c with grace := .ofMillis ms }
  | none => c

def dispatcher (v : Value) : Except Json.Error DispatcherSetup := do
  let config ← (v.member "queue_configs").members.foldlM withQueue (← dispatcherConfig v)
  return {
    handlers := (v.itemsAt "handlers").map fun h => (h.textAt "queue", handler h)
    config := withGrace v config
    remote := (v.given? "broker").map fun b =>
      b.members.map fun m => (m.1, m.2.items.map (stream m.1)) }

def process (v : Value) : Except Json.Error Command := do
  let retry ← settingsAt v "retry" (RetryConfig.read Settings.json) {}
  let subject : Subject := match v.member "delivery" with
    | .string name => .received name
    | d => .given (delivery d (v.textAt "queue")) (busErrorAt? v "settle_fails")
  return .process (v.textAt "queue") (handler (v.member "handler")) retry subject

def publisher (v : Value) : Except Json.Error Command := do
  let config ← settingsAt v "config" (PublisherConfig.read Settings.json) {}
  let script := (v.given? "script").map fun s => s.items.map send
  return .publisher (v.textAt "as") config script (listener v)

def simple? (v : Value) : Option Command :=
  let queue := v.textAt "queue"
  let name := v.textAt "as"
  let consumer := v.textAt "consumer"
  let delivery := v.textAt "delivery"
  let publisher := v.textAt "publisher"
  match v.textAt "do" with
  | "declare_exchange" => some (.declareExchange (.ofValue v))
  | "declare_queue" => some (.declareQueue (.ofValue v))
  | "bind" => some (.bind (.ofValue v))
  | "send" => some (.send (outbound v))
  | "reachable" => some (.reachable (v.flagAt "value" false))
  | "close_broker" => some .closeBroker
  | "send_attempts" => some .sendAttempts
  | "depth" => some (.depth queue)
  | "ready" => some (.ready queue)
  | "consume" =>
    some (.consume queue ((v.textAt? "tag").getD "test") (v.natAt "prefetch" 1) name)
  | "recv" => some (.recv consumer name)
  | "recv_start" => some (.recvStart consumer)
  | "recv_check" => some (.recvCheck consumer name)
  | "ack" => some (.ack delivery)
  | "reject" => some (.reject delivery (v.flagAt "requeue" false))
  | "cancel" => some (.cancel consumer)
  | "close" => some (.close consumer)
  | "join" => some (.join publisher)
  | "sends" => some (.sends publisher)
  | "signals" => some (.signals publisher)
  | "drop_publisher" => some (.dropPublisher publisher)
  | "calls" => some .calls
  | "worker_count" => some .workerCount
  | "records" => some .records
  | "broker_log" => some .brokerLog
  | "shutdown" => some .shutdown
  | "drop_handle" => some .dropHandle
  | "sleep" => some (.sleep (v.natAt "ms" 0))
  | _ => none

def composed? (fresh : Fresh) (v : Value) : Option (Except Json.Error Command) :=
  match v.textAt "do" with
  | "declare" => some ((Topology.ofMember v).map .declare)
  | "publisher" => some (publisher v)
  | "publish" => some (event v fun routes => .target (target v routes))
  | "publish_outcome" => some (event v .byStatus)
  | "publish_notice" => some (notice fresh v)
  | "process" => some (process v)
  | "dispatcher" => some ((dispatcher v).map .dispatcher)
  | _ => none

end Scenario

def Command.ofValue? (fresh : Fresh) (v : Value) : Except ScenarioError Command :=
  match Scenario.simple? v, Scenario.composed? fresh v with
  | some c, _ => .ok c
  | none, some r => r.mapError .value
  | none, none => .error .unknownCommand

end OutcomeRelay.Simulation
