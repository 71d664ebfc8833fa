import OutcomeRelay.Proofs.BrokerContents

/-!
A broker as its clients use it, operation by operation. Consumers are known by their ids and
deliveries by their queue and tag. A history keeps every operation with its reply and with the
broker before and after it; what became of a message is read off these alone.
-/

namespace OutcomeRelay

structure Bus where
  broker : Broker := {}
  consumers : List Consumer := []
  deriving DecidableEq, Repr

namespace Bus

inductive Op where
  | declare (topology : Topology)
  | declareEntity (entity : Topology.Entity)
  | send (message : Outbound)
  | consume (queue : String) (prefetch : Nat)
  | poll (consumer : Nat)
  | cancel (consumer : Nat)
  | close (consumer : Nat)
  | ack (queue : String) (tag : Nat)
  | reject (queue : String) (tag : Nat) (back : Bool)
  | setReachable (value : Bool)
  deriving DecidableEq, Repr

def Op.delivery? : Op → Option (String × Nat)
  | .ack queue tag | .reject queue tag _ => some (queue, tag)
  | _ => none

inductive Reply where
  | done
  | failed (error : BusError)
  | confirmed (confirm : Confirm)
  | opened (consumer : Nat)
  | polled (result : Polled)
  | unknownConsumer
  deriving DecidableEq, Repr

def Reply.ofResult {α : Type} : Except BusError α → Reply
  | .ok _ => .done
  | .error e => .failed e

def Reply.answer : Reply → Except BusError Unit
  | .failed e => .error e
  | _ => .ok ()

def consumer? (s : Bus) (id : Nat) : Option Consumer :=
  s.consumers.find? fun c => c.id == id

def queueOf? (s : Bus) (id : Nat) : Option String :=
  (s.consumer? id).map Consumer.queue

def setConsumer (s : Bus) (c : Consumer) : Bus :=
  { s with consumers := s.consumers.map fun x => if x.id == c.id then c else x }

def perform (s : Bus) : Op → Bus × Reply
  | .declare t =>
    ({ s with broker := (s.broker.declare t).1 }, .ofResult (s.broker.declare t).2.1)
  | .declareEntity e =>
    ({ s with broker := (s.broker.declareEntity e).1 }, .ofResult (s.broker.declareEntity e).2)
  | .send o =>
    ({ s with broker := (s.broker.send o).1 },
      match (s.broker.send o).2 with
      | .ok c => .confirmed c
      | .error e => .failed e)
  | .consume queue prefetch =>
    match s.broker.consume queue prefetch with
    | (b, .ok c) => (⟨b, s.consumers ++ [c]⟩, .opened c.id)
    | (b, .error e) => ({ s with broker := b }, .failed e)
  | .poll id =>
    match s.consumer? id with
    | none => (s, .unknownConsumer)
    | some c =>
      ({ s with broker := (s.broker.poll c).1 }.setConsumer (s.broker.poll c).2.1,
        .polled (s.broker.poll c).2.2)
  | .cancel id =>
    match s.consumer? id with
    | none => (s, .unknownConsumer)
    | some c => (s.setConsumer (Broker.cancel c), .done)
  | .close id =>
    match s.consumer? id with
    | none => (s, .unknownConsumer)
    | some c =>
      ({ s with broker := (s.broker.close c).1 }.setConsumer (s.broker.close c).2.1, .done)
  | .ack queue tag =>
    ({ s with broker := (s.broker.ack queue tag).1 }, .ofResult (s.broker.ack queue tag).2)
  | .reject queue tag back =>
    ({ s with broker := (s.broker.reject queue tag back).1 },
      .ofResult (s.broker.reject queue tag back).2)
  | .setReachable v => ({ s with broker := s.broker.setReachable v }, .done)

structure Entry where
  before : Broker
  op : Op
  reply : Reply
  after : Broker

namespace Entry

/-- The copies that the operation put into a queue: those with a number that was not given before.
-/
def arrivals (e : Entry) (queue : String) : List StoredMessage :=
  (e.after.readyMessages queue).filter fun m => e.before.lastCopy < m.copy

def settled? (e : Entry) : Option (String × Nat) :=
  match e.op, e.reply with
  | .ack queue tag, .done => some (queue, tag)
  | .reject queue tag false, .done => some (queue, tag)
  | _, _ => none

def settles (e : Entry) (queue : String) : Bool :=
  e.settled?.any fun d => d.1 == queue

def departures (e : Entry) (queue : String) : List HeldMessage :=
  match e.settled? with
  | some (q, tag) =>
    if q = queue then (e.before.heldMessages queue).filter fun h => h.tag == tag else []
  | none => []

end Entry

structure History where
  bus : Bus := {}
  entries : List Entry := []

namespace History

def perform (h : History) (op : Op) : History × Reply :=
  let next := h.bus.perform op
  (⟨next.1, h.entries ++ [⟨h.bus.broker, op, next.2, next.1.broker⟩]⟩, next.2)

def run (ops : List Op) : History :=
  ops.foldl (fun h op => (h.perform op).1) {}

def broker (h : History) : Broker :=
  h.bus.broker

def arrived (h : History) (queue : String) : List StoredMessage :=
  h.entries.flatMap fun e => e.arrivals queue

def departed (h : History) (queue : String) : List HeldMessage :=
  h.entries.flatMap fun e => e.departures queue

def settlements (h : History) (queue : String) : Nat :=
  h.entries.countP fun e => e.settles queue

end History
end Bus
end OutcomeRelay
