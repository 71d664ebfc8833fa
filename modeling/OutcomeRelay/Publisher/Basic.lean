import OutcomeRelay.Broker.Message
import OutcomeRelay.Duration
import OutcomeRelay.Event.Wire
import OutcomeRelay.Settings.Reader
import OutcomeRelay.Topology.Names

/-!
Publishing: its settings, its errors, and the message that a publish call hands to the broker.
Events are validated again before they are sent, and a target needs an exchange and a routing key.
-/

namespace OutcomeRelay

structure PublisherConfig where
  maxAttempts : Nat := 3
  retryDelayMs : Nat := 5000
  confirmTimeoutMs : Nat := 5000
  mandatory : Bool := true
  deriving DecidableEq, Repr

namespace PublisherConfig

def retryDelay (c : PublisherConfig) : Duration :=
  .ofMillis c.retryDelayMs

def confirmTimeout (c : PublisherConfig) : Duration :=
  .ofMillis c.confirmTimeoutMs

def attempts (c : PublisherConfig) : Nat :=
  max c.maxAttempts 1

open Settings

variable {σ ε : Type} (r : Reader σ ε)

def fields : List (Field σ ε PublisherConfig) :=
  [Reader.field "max_attempts" r.size? fun v c => { c with maxAttempts := v },
    Reader.field "retry_delay_ms" r.u64? fun v c => { c with retryDelayMs := v },
    Reader.field "confirm_timeout_ms" r.u64? fun v c => { c with confirmTimeoutMs := v },
    Reader.field "mandatory" r.flag? fun v c => { c with mandatory := v }]

def read : σ → Except ε PublisherConfig :=
  r.record? "PublisherConfig" (fields r) {}

end PublisherConfig

inductive PublishError where
  | invalidTarget (target : RoutingTarget)
  | invalidEvent (error : EventError)
  | exhausted (attempts : Nat) (source : BusError)
  deriving DecidableEq, Repr

namespace PublishError

def message : PublishError → String
  | .invalidTarget t =>
    s!"Invalid routing target '{t.text}': exchange and routing key must be non-empty"
  | .invalidEvent e => s!"Refusing to publish invalid outcome event: {e.message}"
  | .exhausted n e => s!"Publish failed after {n} attempts: {e.message}"

def chain (e : PublishError) : List String :=
  e.message :: match e with
    | .invalidTarget _ => []
    | .invalidEvent inner => [inner.message]
    | .exhausted _ source => [source.message]

end PublishError

structure Receipt where
  messageId : String
  target : RoutingTarget
  attempts : Nat
  deriving DecidableEq, Repr

namespace Publisher

def contentType : String :=
  "application/json"

def address (c : PublisherConfig) (target : RoutingTarget) (messageId : String) (body : Bytes) :
    Except PublishError Outbound :=
  if target.exchange = "" ∨ target.routingKey = "" then .error (.invalidTarget target)
  else .ok {
    exchange := target.exchange
    routingKey := target.routingKey
    body := body
    messageId := messageId
    contentType := contentType
    mandatory := c.mandatory }

/-- The message of an event. An invalid event is refused before its target is looked at. -/
def ofEvent (c : PublisherConfig) (target : RoutingTarget) (e : OutcomeEvent) :
    Except PublishError Outbound :=
  match e.validate with
  | .error err => .error (.invalidEvent err)
  | .ok _ => address c target (toString e.id.toNat) e.encode

def ofOutcome (c : PublisherConfig) (routes : OutcomeRoutes) (e : OutcomeEvent) :
    Except PublishError Outbound :=
  ofEvent c (routes.target e.paymentStatus) e

def ofNotice (c : PublisherConfig) (target : RoutingTarget) (messageId : String)
    (n : FailureNotice) : Except PublishError Outbound :=
  address c target messageId n.encode

end Publisher
end OutcomeRelay
