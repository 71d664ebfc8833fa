import OutcomeRelay.Json.Lookup
import OutcomeRelay.Settings.Json
import OutcomeRelay.Topology.Settings

/-!
Topologies in JSON: as lists of exchanges, queues and bindings, or by the names of the usual one.
-/

namespace OutcomeRelay

open Json

def ExchangeSpec.ofValue (v : Value) : ExchangeSpec where
  name := v.textAt "name"
  kind := if v.textAt "kind" = "direct" then .direct else .topic
  durable := v.flagAt "durable" true

def ExchangeSpec.toValue (e : ExchangeSpec) : Value :=
  .object [("name", .string e.name), ("kind", .string e.kind.name), ("durable", .bool e.durable)]

def DeadLetterTarget.ofValue (v : Value) : DeadLetterTarget :=
  ⟨v.textAt "exchange", v.textAt "routingKey"⟩

def DeadLetterTarget.toValue (d : DeadLetterTarget) : Value :=
  .object [("exchange", .string d.exchange), ("routingKey", .string d.routingKey)]

def QueueSpec.ofValue (v : Value) : QueueSpec where
  name := v.textAt "name"
  durable := v.flagAt "durable" true
  deadLetter := (v.given? "deadLetter").map .ofValue

def QueueSpec.toValue (q : QueueSpec) : Value :=
  .object [("name", .string q.name), ("durable", .bool q.durable),
    ("deadLetter", (q.deadLetter.map DeadLetterTarget.toValue).getD .null)]

def Binding.ofValue (v : Value) : Binding :=
  ⟨v.textAt "queue", v.textAt "exchange", v.textAt "routingKey"⟩

def Binding.toValue (b : Binding) : Value :=
  .object [("queue", .string b.queue), ("exchange", .string b.exchange),
    ("routingKey", .string b.routingKey)]

def TopologyNames.ofMember (v : Value) : Except Json.Error TopologyNames :=
  match v.given? "names" with
  | none => .ok {}
  | some n => read Settings.json (.ofValue n)

namespace Topology

def ofValue (v : Value) : Topology where
  exchanges := (v.itemsAt "exchanges").map .ofValue
  queues := (v.itemsAt "queues").map .ofValue
  bindings := (v.itemsAt "bindings").map .ofValue

def toValue (t : Topology) : Value :=
  .object [("exchanges", .array (t.exchanges.map ExchangeSpec.toValue)),
    ("queues", .array (t.queues.map QueueSpec.toValue)),
    ("bindings", .array (t.bindings.map Binding.toValue))]

def ofMember (v : Value) : Except Json.Error Topology :=
  match v.given? "graph" with
  | some g => .ok (ofValue g)
  | none => (TopologyNames.ofMember v).map TopologyNames.topology

end Topology
end OutcomeRelay
