import OutcomeRelay.Broker.Error
import OutcomeRelay.Text.Utf8
import OutcomeRelay.Text.Quoted

/-!
Messages on their way: handed to a broker, given back by it, and delivered to a consumer.
-/

namespace OutcomeRelay

/-- A message for a broker. A mandatory one is to come back if no binding matches. -/
structure Outbound where
  exchange : String
  routingKey : String
  body : Bytes
  messageId : String
  contentType : String
  mandatory : Bool
  deriving DecidableEq, Repr

structure Returned where
  code : Nat
  text : String
  exchange : String
  routingKey : String
  messageId : Option String
  body : Bytes
  deriving DecidableEq, Repr

inductive Confirm where
  | ack
  | returned (message : Returned)
  | nack (cause : Option String)
  deriving DecidableEq, Repr

/-- A message from a queue. The tag names the delivery, not the message. -/
structure Delivery where
  queue : String
  exchange : String
  routingKey : String
  tag : Nat
  body : Bytes
  messageId : Option String
  redelivered : Bool
  deathCount : Option Nat
  deriving DecidableEq, Repr

def Delivery.debugText (d : Delivery) : String :=
  let fields := [
    ("queue", Text.quoted d.queue), ("exchange", Text.quoted d.exchange),
    ("routing_key", Text.quoted d.routingKey), ("delivery_tag", toString d.tag),
    ("message_id", Text.optional (d.messageId.map Text.quoted)),
    ("redelivered", toString d.redelivered),
    ("death_count", Text.optional (d.deathCount.map toString)),
    ("body_len", toString d.body.length)]
  "Delivery \x7b " ++ ", ".intercalate (fields.map fun f => f.1 ++ ": " ++ f.2) ++ " \x7d"

end OutcomeRelay
