import OutcomeRelay.Broker.Error
import OutcomeRelay.Event.Basic
import OutcomeRelay.Log
import OutcomeRelay.Topology.Pattern

/-!
Exchanges, queues and bindings. A topology is sound when names are given, none is declared twice,
and bindings and dead-letter targets name what is declared. It is declared entity by entity, the
exchanges first and the bindings last, and stops at the first refusal.
-/

namespace OutcomeRelay

inductive ExchangeKind where
  | topic
  | direct
  deriving DecidableEq, Repr

def ExchangeKind.name : ExchangeKind → String
  | .topic => "topic"
  | .direct => "direct"

def ExchangeKind.selects : ExchangeKind → String → String → Bool
  | .topic, bindingKey, routingKey => Pattern.matchesKey bindingKey routingKey
  | .direct, bindingKey, routingKey => bindingKey == routingKey

structure ExchangeSpec where
  name : String
  kind : ExchangeKind
  durable : Bool
  deriving DecidableEq, Repr

structure DeadLetterTarget where
  exchange : String
  routingKey : String
  deriving DecidableEq, Repr

structure QueueSpec where
  name : String
  durable : Bool
  deadLetter : Option DeadLetterTarget
  deriving DecidableEq, Repr

structure Binding where
  queue : String
  exchange : String
  routingKey : String
  deriving DecidableEq, Repr

structure Topology where
  exchanges : List ExchangeSpec := []
  queues : List QueueSpec := []
  bindings : List Binding := []
  deriving DecidableEq, Repr

inductive TopologyFault where
  | unnamedExchange
  | exchangeTwice (name : String)
  | unnamedQueue
  | queueTwice (name : String)
  | deadLetterExchange (queue exchange : String)
  | bindingExchange (queue exchange : String)
  | bindingQueue (queue : String)
  deriving DecidableEq, Repr

def TopologyFault.message : TopologyFault → String
  | .unnamedExchange => "Exchange name must not be empty"
  | .exchangeTwice n => s!"Exchange '{n}' declared twice"
  | .unnamedQueue => "Queue name must not be empty"
  | .queueTwice n => s!"Queue '{n}' declared twice"
  | .deadLetterExchange q e => s!"Queue '{q}' dead-letters to undeclared exchange '{e}'"
  | .bindingExchange q e => s!"Binding for queue '{q}' references undeclared exchange '{e}'"
  | .bindingQueue q => s!"Binding references undeclared queue '{q}'"

def TopologyFault.toBusError (f : TopologyFault) : BusError :=
  .topology f.message

namespace Topology

def exchange? (t : Topology) (name : String) : Option ExchangeSpec :=
  t.exchanges.find? fun e => e.name == name

def queue? (t : Topology) (name : String) : Option QueueSpec :=
  t.queues.find? fun q => q.name == name

def exchangeFault? (seen : List String) : List ExchangeSpec → Option TopologyFault
  | [] => none
  | e :: es =>
    if e.name = "" then some .unnamedExchange
    else if e.name ∈ seen then some (.exchangeTwice e.name)
    else exchangeFault? (e.name :: seen) es

def deadLetterFault? (t : Topology) (q : QueueSpec) : Option TopologyFault :=
  q.deadLetter.bind fun d =>
    if (t.exchange? d.exchange).isNone then some (.deadLetterExchange q.name d.exchange) else none

def queueFault? (t : Topology) (seen : List String) : List QueueSpec → Option TopologyFault
  | [] => none
  | q :: qs =>
    if q.name = "" then some .unnamedQueue
    else if q.name ∈ seen then some (.queueTwice q.name)
    else (t.deadLetterFault? q).or (queueFault? t (q.name :: seen) qs)

def bindingFault? (t : Topology) (b : Binding) : Option TopologyFault :=
  if (t.exchange? b.exchange).isNone then some (.bindingExchange b.queue b.exchange)
  else if (t.queue? b.queue).isNone then some (.bindingQueue b.queue)
  else none

def fault? (t : Topology) : Option TopologyFault :=
  (exchangeFault? [] t.exchanges).or
    ((t.queueFault? [] t.queues).or (t.bindings.findSome? t.bindingFault?))

def validate (t : Topology) : Except TopologyFault Unit :=
  match t.fault? with
  | some f => .error f
  | none => .ok ()

inductive Entity where
  | exchange (spec : ExchangeSpec)
  | queue (spec : QueueSpec)
  | binding (binding : Binding)
  deriving DecidableEq, Repr

def entities (t : Topology) : List Entity :=
  t.exchanges.map .exchange ++ t.queues.map .queue ++ t.bindings.map .binding

def Entity.log : Entity → Log.Entry
  | .exchange e =>
    Log.info .topology "Declared exchange"
      [("exchange", .shown e.name), ("kind", .shown e.kind.name), ("durable", .flag e.durable)]
  | .queue q =>
    Log.info .topology "Declared queue" <|
      [("queue", .shown q.name), ("durable", .flag q.durable)]
      ++ Log.optional "dead_letter_exchange" (q.deadLetter.map (·.exchange))
      ++ Log.optional "dead_letter_routing_key" (q.deadLetter.map (·.routingKey))
  | .binding b =>
    Log.info .topology "Bound queue to exchange"
      [("queue", .shown b.queue), ("exchange", .shown b.exchange),
        ("routing_key", .shown b.routingKey)]

def declareEach {σ : Type} (one : σ → Entity → σ × Except BusError Unit) (s : σ) :
    List Entity → σ × Except BusError Unit × List Log.Entry
  | [] => (s, .ok (), [])
  | e :: es =>
    match one s e with
    | (s', .error err) => (s', .error err, [])
    | (s', .ok _) =>
      let (s'', result, log) := declareEach one s' es
      (s'', result, e.log :: log)

def declareWith {σ : Type} (one : σ → Entity → σ × Except BusError Unit) (s : σ) (t : Topology) :
    σ × Except BusError Unit × List Log.Entry :=
  match t.validate with
  | .error f => (s, .error f.toBusError, [])
  | .ok _ => declareEach one s t.entities

end Topology
end OutcomeRelay
