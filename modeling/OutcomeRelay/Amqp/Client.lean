import OutcomeRelay.Amqp.Dialogue
import OutcomeRelay.Connection.Address

/-!
The client of an AMQP broker. Declarations use a channel of their own each; messages are published
on one channel in confirm mode, which is kept while it stays open; every consumer has its channel.
-/

namespace OutcomeRelay.Amqp

structure Client where
  channels : Nat := 0
  publisher : Option Nat := none
  closed : Bool := false
  deriving DecidableEq, Repr

structure Consumer where
  channel : Nat
  queue : String
  tag : String
  cancelled : Bool := false
  deriving DecidableEq, Repr

structure Incoming where
  exchange : String
  routingKey : String
  tag : Nat
  body : Bytes
  messageId : Option String
  redelivered : Bool
  headers : Option FieldTable

def connectedLog (url : String) : Log.Entry :=
  Log.info .remoteBroker "Connected to AMQP" [("url", .shown (Address.redact url))]

def closedLog : Log.Entry :=
  Log.info .remoteBroker "AMQP connection pool closed" []

def reopeningLog : Log.Entry :=
  Log.debug .remoteBroker "Publisher channel closed, reopening" []

def channelNotClosedLog (purpose : String) : Log.Entry :=
  Log.warn .remoteBroker "Failed to close channel" [("purpose", .text purpose)]

def publisherNotClosedLog : Log.Entry :=
  Log.warn .remoteBroker "Failed to close publisher channel" []

def Consumer.log (c : Consumer) (prefetch : Nat) : Log.Entry :=
  Log.info .remoteBroker "AMQP consumer started"
    [("queue", .shown c.queue), ("consumer_tag", .shown c.tag), ("prefetch", Log.nat prefetch)]

namespace Client

open Dialogue

def openChannel (c : Client) : Dialogue (Client × Except BusError Nat) := do
  if c.closed then return (c, .error (.connection "Failed to get connection from pool"))
  if !(← request .connection) then
    return (c, .error (.connection "Failed to get connection from pool"))
  let channel := c.channels + 1
  let c := { c with channels := channel }
  if ← request (.call channel .channelOpen) then return (c, .ok channel)
  return (c, .error (.connection "Failed to create channel"))

def declareWith (c : Client) (m : Method) (purpose : String) (refusal : BusError) :
    Dialogue (Client × Except BusError Unit × List Log.Entry) := do
  match ← c.openChannel with
  | (c, .error e) => return (c, .error e, [])
  | (c, .ok channel) =>
    if !(← request (.call channel m)) then return (c, .error refusal, [])
    if ← request (.call channel .channelClose) then return (c, .ok (), [])
    return (c, .ok (), [channelNotClosedLog purpose])

def declareExchange (c : Client) (e : ExchangeSpec) :
    Dialogue (Client × Except BusError Unit × List Log.Entry) :=
  c.declareWith (.exchangeDeclare e) "exchange_declare"
    (.topology s!"Failed to declare exchange '{e.name}'")

def declareQueue (c : Client) (q : QueueSpec) :
    Dialogue (Client × Except BusError Unit × List Log.Entry) :=
  c.declareWith (.queueDeclare q) "queue_declare"
    (.topology s!"Failed to declare queue '{q.name}'")

def bind (c : Client) (b : Binding) :
    Dialogue (Client × Except BusError Unit × List Log.Entry) :=
  c.declareWith (.queueBind b) "queue_bind"
    (.topology s!"Failed to bind queue '{b.queue}' to '{b.exchange}'")

def declareEntity (c : Client) :
    Topology.Entity → Dialogue (Client × Except BusError Unit × List Log.Entry)
  | .exchange e => c.declareExchange e
  | .queue q => c.declareQueue q
  | .binding b => c.bind b

def openPublisher (c : Client) : Dialogue (Client × Except BusError Nat) := do
  match ← c.openChannel with
  | (c, .error e) => return (c, .error e)
  | (c, .ok channel) =>
    if ← request (.call channel .confirmSelect) then
      return ({ c with publisher := some channel }, .ok channel)
    return (c, .error (.channel "Failed to enable publisher confirms"))

def publisherChannel (c : Client) : Dialogue (Client × Except BusError Nat × List Log.Entry) := do
  match c.publisher with
  | none =>
    let (c, r) ← c.openPublisher
    return (c, r, [])
  | some channel =>
    if ← request (.isOpen channel) then return (c, .ok channel, [])
    let (c, r) ← c.openPublisher
    return (c, r, [reopeningLog])

/-- Publish a message, and tell the channel on which its confirmation is to come. After a failure
the next message goes to a fresh channel. -/
def send (c : Client) (o : Outbound) :
    Dialogue (Client × Except BusError Nat × List Log.Entry) := do
  match ← c.publisherChannel with
  | (c, .error e, log) => return (c, .error e, log)
  | (c, .ok channel, log) =>
    if ← request (.call channel (.basicPublish o)) then return (c, .ok channel, log)
    return ({ c with publisher := none }, .error (.publish "Failed to publish"), log)

def close (c : Client) : Dialogue (Client × List Log.Entry) := do
  let ended : Client := { c with publisher := none, closed := true }
  match c.publisher with
  | none => return (ended, [closedLog])
  | some channel =>
    if ← request (.call channel .channelClose) then return (ended, [closedLog])
    return (ended, [publisherNotClosedLog, closedLog])

def consume (c : Client) (queue tag : String) (prefetch : Nat) :
    Dialogue (Client × Except BusError Consumer) := do
  match ← c.openChannel with
  | (c, .error e) => return (c, .error e)
  | (c, .ok channel) =>
    if !(← request (.call channel (.basicQos prefetch))) then
      return (c, .error (.subscribe "Failed to set prefetch"))
    if !(← request (.call channel (.basicConsume queue tag))) then
      return (c, .error (.subscribe "Failed to start consumer"))
    return (c, .ok { channel, queue, tag })

end Client

namespace Consumer

open Dialogue

/-- The delivery that a consumer makes of a message, or the panic that counting its deaths ends
with. -/
def delivery (c : Consumer) (o : Overflow) (m : Incoming) : Except String Delivery :=
  (deathCount o m.headers).map fun deathCount =>
    { queue := c.queue, exchange := m.exchange, routingKey := m.routingKey, tag := m.tag
      body := m.body, messageId := m.messageId, redelivered := m.redelivered, deathCount }

def cancel (c : Consumer) : Dialogue (Consumer × Except BusError Unit) := do
  if c.cancelled then return (c, .ok ())
  let c := { c with cancelled := true }
  if ← request (.call c.channel (.basicCancel c.tag)) then return (c, .ok ())
  return (c, .error (.subscribe "Failed to cancel consumer"))

def close (c : Consumer) : Dialogue (Consumer × Except BusError Unit) := do
  let c := { c with cancelled := true }
  if !(← request (.isOpen c.channel)) then return (c, .ok ())
  if ← request (.call c.channel .channelClose) then return (c, .ok ())
  return (c, .error (.channel "Failed to close consumer channel"))

end Consumer

structure Acker where
  channel : Nat
  tag : Nat
  used : Bool := false
  deriving DecidableEq, Repr

namespace Acker

open Dialogue

def settle (a : Acker) (m : Method) (refusal : BusError) :
    Dialogue (Acker × Except BusError Unit) := do
  if a.used then return (a, .error refusal)
  let a := { a with used := true }
  if ← request (.call a.channel m) then return (a, .ok ())
  return (a, .error refusal)

def ack (a : Acker) : Dialogue (Acker × Except BusError Unit) :=
  a.settle (.basicAck a.tag) (.ack "Failed to ack message")

def reject (a : Acker) (requeue : Bool) : Dialogue (Acker × Except BusError Unit) :=
  a.settle (.basicReject a.tag requeue) (.ack "Failed to reject message")

end Acker
end OutcomeRelay.Amqp
