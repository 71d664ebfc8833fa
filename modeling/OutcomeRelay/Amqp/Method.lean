import OutcomeRelay.Amqp.Field
import OutcomeRelay.Broker.Message
import OutcomeRelay.Topology.Basic

/-!
The methods that a client sends to an AMQP broker, and the confirmations that come back. A queue's
dead-letter target travels in its arguments; messages are persistent.
-/

namespace OutcomeRelay.Amqp

inductive Method where
  | connectionOpen
  | channelOpen
  | channelClose
  | confirmSelect
  | exchangeDeclare (spec : ExchangeSpec)
  | queueDeclare (spec : QueueSpec)
  | queueBind (binding : Binding)
  | basicQos (prefetch : Nat)
  | basicConsume (queue tag : String)
  | basicCancel (tag : String)
  | basicPublish (message : Outbound)
  | basicAck (tag : Nat)
  | basicReject (tag : Nat) (requeue : Bool)
  deriving DecidableEq, Repr

namespace Method

def name : Method → String
  | connectionOpen => "connection.open"
  | channelOpen => "channel.open"
  | channelClose => "channel.close"
  | confirmSelect => "confirm.select"
  | exchangeDeclare _ => "exchange.declare"
  | queueDeclare _ => "queue.declare"
  | queueBind _ => "queue.bind"
  | basicQos _ => "basic.qos"
  | basicConsume .. => "basic.consume"
  | basicCancel _ => "basic.cancel"
  | basicPublish _ => "basic.publish"
  | basicAck _ => "basic.ack"
  | basicReject .. => "basic.reject"

def isFraming : Method → Bool
  | connectionOpen | channelOpen | channelClose => true
  | _ => false

def isAnswered : Method → Bool
  | basicPublish _ | basicAck _ | basicReject .. => false
  | _ => true

def closing : Nat × String :=
  (200, "OK")

def persistent : Nat := 2

def queueArguments (spec : QueueSpec) : FieldTable :=
  match spec.deadLetter with
  | some d =>
    [("x-dead-letter-exchange", .text d.exchange),
      ("x-dead-letter-routing-key", .text d.routingKey)]
  | none => []

end Method

inductive Confirmation where
  | ack (returned : Option Returned)
  | nack (returned : Option Returned)
  deriving DecidableEq, Repr

namespace Confirmation

/-- A message that comes back with a refusal is told of in the cause only. -/
def toConfirm : Confirmation → Confirm
  | ack none => .ack
  | ack (some r) => .returned r
  | nack none => .nack none
  | nack (some r) => .nack (some s!"{r.code} {r.text}")

def resolve : Option Confirmation → Except BusError Confirm
  | some c => .ok c.toConfirm
  | none => .error (.channel "Publish confirmation failed")

end Confirmation
end OutcomeRelay.Amqp
