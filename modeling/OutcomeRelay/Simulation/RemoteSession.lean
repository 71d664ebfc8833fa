import OutcomeRelay.Simulation.Peer
import OutcomeRelay.Simulation.Session

/-!
Sessions of a client with a scripted AMQP broker: commands by name, and the methods that each of
them sends. A consumer hears its messages in order; once its channel is gone it hears of that, once,
and then its stream is over. A panic ends the session.
-/

namespace OutcomeRelay.Simulation

open Amqp

inductive PublishReply where
  | confirm (confirmation : Confirmation)
  | closeChannel
  deriving DecidableEq, Repr

inductive RemoteCommand where
  | poolSize
  | declare (t : Topology)
  | declareExchange (e : ExchangeSpec)
  | declareQueue (q : QueueSpec)
  | bind (b : Binding)
  | send (o : Outbound) (reply : PublishReply)
  | consume (queue tag : String) (prefetch : Nat) (name : String)
  | deliver (message : Incoming)
  | recv (consumer name : String)
  | ack (delivery : String)
  | reject (delivery : String) (requeue : Bool)
  | cancel (consumer : String)
  | close (consumer : String)
  | serverClose
  | closeBroker

structure RemoteConsumer where
  consumer : Amqp.Consumer
  inbox : List Incoming := []
  informed : Bool := false

structure RemoteSession where
  peer : Peer := {}
  client : Client := {}
  poolSize : Option Nat := none
  consumers : List (String × RemoteConsumer) := []
  last : Option String := none
  delivered : Nat := 0
  ackers : List (String × Acker) := []
  log : List Log.Entry := []

namespace RemoteSession

def say (s : RemoteSession) (log : List Log.Entry) : RemoteSession :=
  { s with log := s.log ++ log }

def hold {α : Type} (s : RemoteSession) (d : Dialogue α) : RemoteSession × α :=
  let (peer, a) := d.run Peer.answer s.peer
  ({ s with peer }, a)

def connect (url : String) (poolSize : Option Nat) (log : List Log.Entry) : RemoteSession :=
  let s : RemoteSession := { poolSize }
  let (s, _) := s.hold (.request .connection)
  s.say (connectedLog url :: log)

def declared (s : RemoteSession)
    (d : Dialogue (Client × Except BusError Unit × List Log.Entry)) :
    RemoteSession × Except BusError Unit :=
  let (s, client, r, log) := s.hold d
  ({ s with client }.say log, r)

def declareEntity (s : RemoteSession) (e : Topology.Entity) :
    RemoteSession × Except BusError Unit :=
  s.declared (s.client.declareEntity e)

def replied (r : RemoteSession × Except BusError Unit) : RemoteSession × Reply :=
  (r.1, Session.unit r.2)

def confirmation (s : RemoteSession) (channel : Nat) :
    PublishReply → RemoteSession × Except BusError Confirm
  | .confirm c =>
    (s, Confirmation.resolve (if s.peer.channels.contains channel then some c else none))
  | .closeChannel => ({ s with peer := s.peer.drop channel }, Confirmation.resolve none)

def send (s : RemoteSession) (o : Outbound) (reply : PublishReply) : RemoteSession × Reply :=
  let (s, client, r, log) := s.hold (s.client.send o)
  let s := { s with client }.say log
  match r with
  | .error e => (s, .failed e)
  | .ok channel =>
    match s.confirmation channel reply with
    | (s, .ok c) => (s, .confirmed c)
    | (s, .error e) => (s, .failed e)

def consume (s : RemoteSession) (queue tag : String) (prefetch : Nat) (name : String) :
    RemoteSession × Reply :=
  let (s, client, r) := s.hold (s.client.consume queue tag prefetch)
  let s := { s with client }
  match r with
  | .error e => (s, .failed e)
  | .ok c =>
    ({ s with consumers := Session.put name { consumer := c } s.consumers, last := some name }.say
      [c.log prefetch], .done)

def noConsumer : String :=
  "no such consumer"

def withConsumer (s : RemoteSession) (name : String)
    (f : RemoteConsumer → RemoteSession × Reply) : RemoteSession × Reply :=
  match s.consumers.lookup name with
  | some c => f c
  | none => (s, .refused noConsumer)

def setConsumer (s : RemoteSession) (name : String) (c : RemoteConsumer) : RemoteSession :=
  { s with consumers := Session.put name c s.consumers }

def deliver (s : RemoteSession) (m : Incoming) : RemoteSession × Reply :=
  match s.last with
  | none => (s, .refused noConsumer)
  | some name =>
    s.withConsumer name fun c =>
      let tag := s.delivered + 1
      let s := { s with delivered := tag }
      (if s.peer.channels.contains c.consumer.channel then
        s.setConsumer name { c with inbox := c.inbox ++ [{ m with tag }] }
      else s, .count (some tag))

def lost : BusError :=
  .connection "Consumer delivery error"

/-- Take the next message. The program checks its sums. -/
def recv (s : RemoteSession) (consumer name : String) : Except String (RemoteSession × Reply) :=
  match s.consumers.lookup consumer with
  | none => .ok (s, .refused noConsumer)
  | some c =>
    if c.consumer.cancelled then .ok (s, .ended)
    else
      match c.inbox with
      | m :: rest =>
        (c.consumer.delivery .panics m).map fun d =>
          let acker : Acker := { channel := c.consumer.channel, tag := d.tag }
          let s := s.setConsumer consumer { c with inbox := rest }
          ({ s with ackers := Session.put name acker s.ackers }, .delivered d)
      | [] =>
        if s.peer.channels.contains c.consumer.channel then .ok (s, .pending)
        else if c.informed then .ok (s, .ended)
        else .ok (s.setConsumer consumer { c with informed := true }, .failed lost)

def settle (s : RemoteSession) (name : String)
    (d : Acker → Dialogue (Acker × Except BusError Unit)) : RemoteSession × Reply :=
  match s.ackers.lookup name with
  | none => (s, .refused "no such delivery")
  | some a =>
    let (s, a, r) := s.hold (d a)
    ({ s with ackers := Session.put name a s.ackers }, Session.unit r)

def stop (s : RemoteSession) (name : String)
    (d : Amqp.Consumer → Dialogue (Amqp.Consumer × Except BusError Unit)) :
    RemoteSession × Reply :=
  s.withConsumer name fun c =>
    let (s, consumer, r) := s.hold (d c.consumer)
    (s.setConsumer name { c with consumer }, Session.unit r)

def run (s : RemoteSession) : RemoteCommand → Except String (RemoteSession × Reply)
  | .poolSize => .ok (s, .count s.poolSize)
  | .declare t =>
    let (s, r, log) := Topology.declareWith declareEntity s t
    .ok (s.say log, Session.unit r)
  | .declareExchange e => .ok (replied (s.declareEntity (.exchange e)))
  | .declareQueue q => .ok (replied (s.declareEntity (.queue q)))
  | .bind b => .ok (replied (s.declareEntity (.binding b)))
  | .send o reply => .ok (s.send o reply)
  | .consume queue tag prefetch name => .ok (s.consume queue tag prefetch name)
  | .deliver m => .ok (s.deliver m)
  | .recv consumer name => s.recv consumer name
  | .ack d => .ok (s.settle d Acker.ack)
  | .reject d requeue => .ok (s.settle d fun a => a.reject requeue)
  | .cancel c => .ok (s.stop c Amqp.Consumer.cancel)
  | .close c => .ok (s.stop c Amqp.Consumer.close)
  | .serverClose => .ok ({ s with peer := s.peer.disconnect }, .done)
  | .closeBroker =>
    let (s, client, log) := s.hold s.client.close
    .ok ({ s with client }.say log, .done)

def takeTrace (s : RemoteSession) : RemoteSession × List Method :=
  ({ s with peer := { s.peer with trace := [] } }, s.peer.trace)

end RemoteSession
end OutcomeRelay.Simulation
