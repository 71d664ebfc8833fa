import OutcomeRelay.Broker.Message
import OutcomeRelay.Topology.Basic

/-!
A broker in memory. A queue has messages that wait and messages that a consumer holds under a tag;
every copy of a message that enters a queue gets a number of its own, and tags are never used twice.
The epoch of a queue counts what may let a waiting consumer go on, so that a consumer that saw an
epoch is woken exactly when the epoch has changed.
-/

namespace OutcomeRelay

structure StoredMessage where
  copy : Nat
  exchange : String
  routingKey : String
  body : Bytes
  messageId : Option String
  redelivered : Bool
  deathCount : Nat
  deriving DecidableEq, Repr

structure HeldMessage where
  tag : Nat
  consumer : Nat
  message : StoredMessage
  deriving DecidableEq, Repr

/-- A queue. Held messages are in the order of their tags. -/
structure Queue where
  spec : QueueSpec
  ready : List StoredMessage := []
  held : List HeldMessage := []
  epoch : Nat := 0
  deriving DecidableEq, Repr

namespace Queue

def notify (q : Queue) : Queue :=
  { q with epoch := q.epoch + 1 }

def depth (q : Queue) : Nat :=
  q.ready.length + q.held.length

def outstanding (q : Queue) (consumer : Nat) : Nat :=
  (q.held.filter fun h => h.consumer == consumer).length

end Queue

/-- A consumer of one queue. A prefetch of zero sets no limit. -/
structure Consumer where
  id : Nat
  queue : String
  prefetch : Nat
  cancelled : Bool := false
  deriving DecidableEq, Repr

/-- What one poll of a consumer gives; one that has to wait saw this epoch of its queue. -/
inductive Polled where
  | ended
  | failed (error : BusError)
  | delivered (delivery : Delivery)
  | pending (epoch : Nat)
  deriving DecidableEq, Repr

inductive DeadLettering where
  | noTarget
  | unroutable (target : DeadLetterTarget)
  | routed (target : DeadLetterTarget)
  deriving DecidableEq, Repr

structure Broker where
  exchanges : List ExchangeSpec := []
  queues : List Queue := []
  bindings : List Binding := []
  lastTag : Nat := 0
  lastConsumer : Nat := 0
  lastCopy : Nat := 0
  reachable : Bool := true
  sendAttempts : Nat := 0
  deriving DecidableEq, Repr

namespace Broker

def noRoute : Nat :=
  312

def exchange? (b : Broker) (name : String) : Option ExchangeSpec :=
  b.exchanges.find? fun e => e.name == name

def queue? (b : Broker) (name : String) : Option Queue :=
  b.queues.find? fun q => q.spec.name == name

def modifyQueue (b : Broker) (name : String) (f : Queue → Queue) : Broker :=
  { b with queues := b.queues.map fun q => if q.spec.name == name then f q else q }

def unreachable : BusError :=
  .connection "Connection refused: broker unreachable"

def noExchange (name : String) : String :=
  s!"NOT_FOUND - no exchange '{name}' in vhost '/'"

def noQueue (name : String) : String :=
  s!"NOT_FOUND - no queue '{name}' in vhost '/'"

def whenReachable {α : Type} (b : Broker) (op : Broker × Except BusError α) :
    Broker × Except BusError α :=
  if b.reachable then op else (b, .error unreachable)

def declareExchange (b : Broker) (spec : ExchangeSpec) : Broker × Except BusError Unit :=
  b.whenReachable <|
    match b.exchange? spec.name with
    | none => ({ b with exchanges := b.exchanges ++ [spec] }, .ok ())
    | some old =>
      if old.kind ≠ spec.kind then
        (b, .error (.topology
          s!"PRECONDITION_FAILED - inequivalent arg 'type' for exchange '{spec.name}': received '{spec.kind.name}' but current is '{old.kind.name}'"))
      else if old.durable ≠ spec.durable then
        (b, .error (.topology
          s!"PRECONDITION_FAILED - inequivalent arg 'durable' for exchange '{spec.name}'"))
      else (b, .ok ())

def declareQueue (b : Broker) (spec : QueueSpec) : Broker × Except BusError Unit :=
  b.whenReachable <|
    match b.queue? spec.name with
    | none => ({ b with queues := b.queues ++ [{ spec }] }, .ok ())
    | some old =>
      if old.spec.durable ≠ spec.durable then
        (b, .error (.topology
          s!"PRECONDITION_FAILED - inequivalent arg 'durable' for queue '{spec.name}'"))
      else if old.spec.deadLetter ≠ spec.deadLetter then
        (b, .error (.topology
          s!"PRECONDITION_FAILED - inequivalent arg 'x-dead-letter-exchange' for queue '{spec.name}'"))
      else (b, .ok ())

def bind (b : Broker) (binding : Binding) : Broker × Except BusError Unit :=
  b.whenReachable <|
    if (b.exchange? binding.exchange).isNone then
      (b, .error (.topology (noExchange binding.exchange)))
    else if (b.queue? binding.queue).isNone then
      (b, .error (.topology (noQueue binding.queue)))
    else if binding ∈ b.bindings then (b, .ok ())
    else ({ b with bindings := b.bindings ++ [binding] }, .ok ())

def declareEntity (b : Broker) : Topology.Entity → Broker × Except BusError Unit
  | .exchange e => b.declareExchange e
  | .queue q => b.declareQueue q
  | .binding r => b.bind r

def declare (b : Broker) (t : Topology) : Broker × Except BusError Unit × List Log.Entry :=
  t.declareWith declareEntity b

/-- The queues of the bindings that match, one for each binding, if there is such an exchange. -/
def targets (b : Broker) (exchange routingKey : String) : Option (List String) :=
  (b.exchange? exchange).map fun e =>
    (b.bindings.filter fun r =>
      r.exchange == exchange && e.kind.selects r.routingKey routingKey).map (·.queue)

def enqueue (b : Broker) (m : StoredMessage) (queue : String) : Broker :=
  let copy := b.lastCopy + 1
  { b with lastCopy := copy }.modifyQueue queue fun q =>
    { q with ready := q.ready ++ [{ m with copy := copy }] }.notify

def enqueueAll (b : Broker) (m : StoredMessage) (queues : List String) : Broker :=
  queues.foldl (fun b q => b.enqueue m q) b

def route (b : Broker) (m : StoredMessage) : Broker × Option (List String) :=
  match b.targets m.exchange m.routingKey with
  | none => (b, none)
  | some queues =>
    let known := queues.filter fun q => (b.queue? q).isSome
    (b.enqueueAll m known, some known)

def fresh (o : Outbound) : StoredMessage where
  copy := 0
  exchange := o.exchange
  routingKey := o.routingKey
  body := o.body
  messageId := some o.messageId
  redelivered := false
  deathCount := 0

def returned (o : Outbound) : Returned where
  code := noRoute
  text := "NO_ROUTE"
  exchange := o.exchange
  routingKey := o.routingKey
  messageId := some o.messageId
  body := o.body

def send (b : Broker) (o : Outbound) : Broker × Except BusError Confirm :=
  let b := { b with sendAttempts := b.sendAttempts + 1 }
  b.whenReachable <|
    match b.route (fresh o) with
    | (b', none) => (b', .ok (.nack (some (noExchange o.exchange))))
    | (b', some []) => (b', .ok (if o.mandatory then .returned (returned o) else .ack))
    | (b', some _) => (b', .ok .ack)

def consume (b : Broker) (queue : String) (prefetch : Nat) : Broker × Except BusError Consumer :=
  b.whenReachable <|
    if (b.queue? queue).isNone then (b, .error (.subscribe (noQueue queue)))
    else
      let id := b.lastConsumer + 1
      ({ b with lastConsumer := id }, .ok { id, queue, prefetch })

/-- A message on its way to a consumer. A count of no deaths is not told. -/
def delivery (queue : String) (tag : Nat) (m : StoredMessage) : Delivery where
  queue := queue
  exchange := m.exchange
  routingKey := m.routingKey
  tag := tag
  body := m.body
  messageId := m.messageId
  redelivered := m.redelivered
  deathCount := if 0 < m.deathCount then some m.deathCount else none

/-- A delivery tells all that is stored of a message, and the queue that it came from. -/
structure Presents (d : Delivery) (queue : String) (m : StoredMessage) : Prop where
  queue : d.queue = queue
  exchange : d.exchange = m.exchange
  routingKey : d.routingKey = m.routingKey
  body : d.body = m.body
  messageId : d.messageId = m.messageId
  redelivered : d.redelivered = m.redelivered
  deathCount : ∀ n, d.deathCount = some n ↔ m.deathCount = n ∧ 0 < n

theorem presents_delivery (queue : String) (tag : Nat) (m : StoredMessage) :
    Presents (delivery queue tag m) queue m := by
  refine ⟨rfl, rfl, rfl, rfl, rfl, rfl, fun n => ?_⟩
  unfold delivery
  split
  · rw [Option.some.injEq]
    omega
  · next hnone =>
    constructor
    · nofun
    · rintro ⟨rfl, hpos⟩
      exact absurd hpos hnone

/-- Poll a consumer once. Every poll that finds the broker reachable uses up a tag. -/
def poll (b : Broker) (c : Consumer) : Broker × Consumer × Polled :=
  if c.cancelled then (b, c, .ended)
  else if !b.reachable then
    (b, { c with cancelled := true },
      .failed (.connection s!"Connection lost while consuming '{c.queue}'"))
  else
    let tag := b.lastTag + 1
    let b := { b with lastTag := tag }
    match b.queue? c.queue with
    | none => (b, c, .pending 0)
    | some q =>
      if 0 < c.prefetch ∧ c.prefetch ≤ q.outstanding c.id then (b, c, .pending q.epoch)
      else
        match q.ready with
        | [] => (b, c, .pending q.epoch)
        | m :: rest =>
          (b.modifyQueue c.queue fun q =>
            { q with ready := rest, held := q.held ++ [⟨tag, c.id, m⟩] },
            c, .delivered (delivery c.queue tag m))

def release (b : Broker) (queue : String) (tag : Nat) : Broker × Except BusError StoredMessage :=
  match b.queue? queue with
  | none => (b, .error (.ack s!"queue '{queue}' no longer exists"))
  | some q =>
    match q.held.find? fun h => h.tag == tag with
    | none => (b, .error (.ack s!"PRECONDITION_FAILED - unknown delivery tag {tag}"))
    | some h =>
      (b.modifyQueue queue fun q => { q with held := q.held.filter fun h => h.tag != tag }.notify,
        .ok h.message)

def ack (b : Broker) (queue : String) (tag : Nat) : Broker × Except BusError Unit :=
  match b.release queue tag with
  | (b', .ok _) => (b', .ok ())
  | (b', .error e) => (b', .error e)

def requeue (b : Broker) (queue : String) (m : StoredMessage) : Broker :=
  b.modifyQueue queue fun q =>
    { q with ready := { m with redelivered := true } :: q.ready }.notify

def deadLetter (b : Broker) (queue : String) (m : StoredMessage) : Broker × DeadLettering :=
  match (b.queue? queue).bind (·.spec.deadLetter) with
  | none => (b, .noTarget)
  | some target =>
    let dead := { m with
      deathCount := m.deathCount + 1
      redelivered := false
      exchange := target.exchange
      routingKey := target.routingKey }
    match b.route dead with
    | (b', some (_ :: _)) => (b', .routed target)
    | (b', _) => (b', .unroutable target)

def reject (b : Broker) (queue : String) (tag : Nat) (back : Bool) :
    Broker × Except BusError (Option DeadLettering) :=
  match b.release queue tag with
  | (b', .error e) => (b', .error e)
  | (b', .ok m) =>
    if back then (b'.requeue queue m, .ok none)
    else
      let (b'', d) := b'.deadLetter queue m
      (b'', .ok (some d))

def cancel (c : Consumer) : Consumer :=
  { c with cancelled := true }

/-- Close a consumer: what it holds goes back to the head of its queue, oldest first. -/
def close (b : Broker) (c : Consumer) : Broker × Consumer × Nat :=
  let closed := { c with cancelled := true }
  match b.queue? c.queue with
  | none => (b, closed, 0)
  | some q =>
    let mine := q.held.filter fun h => h.consumer == c.id
    if mine.isEmpty then (b, closed, 0)
    else
      (b.modifyQueue c.queue fun q =>
        { q with
          ready :=
            mine.map (fun h : HeldMessage => { h.message with redelivered := true }) ++ q.ready
          held := q.held.filter fun h => h.consumer != c.id }.notify,
        closed, mine.length)

def setReachable (b : Broker) (reachable : Bool) : Broker :=
  let b := { b with reachable := reachable }
  if reachable then b else { b with queues := b.queues.map Queue.notify }

def depth? (b : Broker) (queue : String) : Option Nat :=
  (b.queue? queue).map Queue.depth

def readyMessages (b : Broker) (queue : String) : List StoredMessage :=
  ((b.queue? queue).map Queue.ready).getD []

end Broker

namespace Broker

def consumeLog (queue consumerTag : String) (prefetch : Nat) : Log.Entry :=
  Log.info .memoryBroker "In-memory consumer started"
    [("queue", .shown queue), ("consumer_tag", .shown consumerTag), ("prefetch", Log.nat prefetch)]

def closedLog : Log.Entry :=
  Log.info .memoryBroker "In-memory broker closed" []

def closeLog (queue : String) : Nat → List Log.Entry
  | 0 => []
  | n => [Log.debug .memoryBroker "Unacked deliveries returned to queue"
      [("queue", .shown queue), ("returned", Log.nat n)]]

end Broker

def DeadLettering.log (queue : String) : DeadLettering → Log.Entry
  | .noTarget =>
    Log.debug .memoryBroker "Rejected message dropped, queue has no dead-letter exchange"
      [("queue", .shown queue)]
  | .unroutable t =>
    Log.warn .memoryBroker "Dead-lettered message matched no queue and was dropped"
      [("queue", .shown queue), ("dead_letter_exchange", .shown t.exchange),
        ("dead_letter_routing_key", .shown t.routingKey)]
  | .routed t =>
    Log.debug .memoryBroker "Message dead-lettered"
      [("queue", .shown queue), ("dead_letter_exchange", .shown t.exchange)]

end OutcomeRelay
