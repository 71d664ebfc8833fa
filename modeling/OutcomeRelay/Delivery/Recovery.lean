import OutcomeRelay.Broker.Message
import OutcomeRelay.Delivery.Attempt
import OutcomeRelay.Log

/-!
Recovery: the end of a delivery whose handler kept failing. The failure is logged, the delivery is
rejected for good so that its queue sends it away as dead, and a record of it is kept. Nothing that
happens on the way keeps the reject from being tried.
-/

namespace OutcomeRelay

structure DeliveryContext where
  queue : String
  routingKey : String
  tag : Nat
  messageId : Option String
  redelivered : Bool
  deathCount : Option Nat
  retryCount : Option Nat
  deriving DecidableEq, Repr

namespace DeliveryContext

def ofDelivery (d : Delivery) (retryCount : Option Nat) : DeliveryContext where
  queue := d.queue
  routingKey := d.routingKey
  tag := d.tag
  messageId := d.messageId
  redelivered := d.redelivered
  deathCount := d.deathCount
  retryCount := retryCount

/-- The count of invocations, or minus one where it is not known. -/
def resolvedRetryCount (c : DeliveryContext) : Int :=
  c.retryCount.elim (-1) Int.ofNat

def debugText (c : DeliveryContext) : String :=
  let fields := [
    ("queue", Text.quoted c.queue), ("routing_key", Text.quoted c.routingKey),
    ("delivery_tag", toString c.tag),
    ("message_id", Text.optional (c.messageId.map Text.quoted)),
    ("redelivered", toString c.redelivered),
    ("death_count", Text.optional (c.deathCount.map toString)),
    ("retry_count", Text.optional (c.retryCount.map toString))]
  "DeliveryContext \x7b " ++ ", ".intercalate (fields.map fun f => f.1 ++ ": " ++ f.2) ++ " \x7d"

end DeliveryContext

structure DeadLetterRecord where
  queue : String
  routingKey : String
  messageId : Option String
  retryCount : Int
  body : Bytes
  causeChain : List String
  rejected : Bool
  deriving DecidableEq, Repr

namespace Recovery

def log (c : DeliveryContext) (body : Bytes) (chain : List String) : List Log.Entry :=
  let queue : String × Log.Field := ("queue", .shown c.queue)
  let tag : String × Log.Field := ("delivery_tag", Log.nat c.tag)
  [Log.error .recovery "Retries exhausted, dead-lettering message"
    [queue, ("routing_key", .shown c.routingKey),
      ("message_id", .text (c.messageId.getD "-")), tag]]
  ++ (if c.retryCount.isNone then
      [Log.error .recovery "Could not determine retry count for dead-lettered message" [queue, tag]]
    else [])
  ++ [Log.error .recovery s!"Retry count: {c.resolvedRetryCount}"
      [queue, ("retry_count", .number c.resolvedRetryCount), ("redelivered", .flag c.redelivered),
        ("death_count", .shown (Text.optional (c.deathCount.map toString)))],
    Log.error .recovery "Message body" [queue, ("body", .shown (Text.decodeLossy body))],
    Log.error .recovery ("Cause: " ++ ": ".intercalate chain)
      [queue, ("cause", .shown (Text.quotedList chain))]]

def rejectLog (c : DeliveryContext) : Except BusError Unit → List Log.Entry
  | .ok _ => []
  | .error e => [Log.error .recovery "Failed to reject message for dead-lettering"
      [("queue", .shown c.queue), ("delivery_tag", Log.nat c.tag), ("error", .shown e.message)]]

def record (c : DeliveryContext) (body : Bytes) (chain : List String)
    (rejected : Except BusError Unit) : DeadLetterRecord where
  queue := c.queue
  routingKey := c.routingKey
  messageId := c.messageId
  retryCount := c.resolvedRetryCount
  body := body
  causeChain := chain
  rejected := match rejected with
    | .ok _ => true
    | .error _ => false

inductive Sink where
  | absent
  | listening
  | dropped
  deriving DecidableEq, Repr

def Sink.take (s : Sink) (r : DeadLetterRecord) : Option DeadLetterRecord × List Log.Entry :=
  match s with
  | .absent => (none, [])
  | .listening => (some r, [])
  | .dropped =>
    (none, [Log.warn .recovery "Dead letter record receiver dropped" [("queue", .shown r.queue)]])

end Recovery
end OutcomeRelay
