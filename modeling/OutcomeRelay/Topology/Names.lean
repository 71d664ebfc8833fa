import OutcomeRelay.Topology.Basic

/-!
The topology of payment outcomes and its names: a topic exchange with a work queue for each
outcome, and a direct exchange that takes rejected messages to the dead-letter queue of their kind.
-/

namespace OutcomeRelay

structure TopologyNames where
  exchange : String := "order.payment.exchange"
  successQueue : String := "order.payment.success.queue"
  successRoutingKey : String := "order.payment.success"
  failedQueue : String := "order.payment.failed.queue"
  failedRoutingKey : String := "order.payment.failed"
  dlxExchange : String := "order.payment.dlx.exchange"
  successDlq : String := "order.payment.success.dlq"
  successDlqRoutingKey : String := "order.payment.success.dlq"
  failedDlq : String := "order.payment.failed.dlq"
  failedDlqRoutingKey : String := "order.payment.failed.dlq"
  deriving DecidableEq, Repr

structure RoutingTarget where
  exchange : String
  routingKey : String
  deriving DecidableEq, Repr

def RoutingTarget.text (t : RoutingTarget) : String :=
  s!"{t.exchange}/{t.routingKey}"

structure OutcomeRoutes where
  success : RoutingTarget
  failed : RoutingTarget
  deriving DecidableEq, Repr

def OutcomeRoutes.target (r : OutcomeRoutes) : PaymentStatus → RoutingTarget
  | .success => r.success
  | .failed => r.failed

namespace TopologyNames

def routes (n : TopologyNames) : OutcomeRoutes where
  success := ⟨n.exchange, n.successRoutingKey⟩
  failed := ⟨n.exchange, n.failedRoutingKey⟩

def topology (n : TopologyNames) : Topology where
  exchanges := [⟨n.exchange, .topic, true⟩, ⟨n.dlxExchange, .direct, true⟩]
  queues := [
    ⟨n.successQueue, true, some ⟨n.dlxExchange, n.successDlqRoutingKey⟩⟩,
    ⟨n.failedQueue, true, some ⟨n.dlxExchange, n.failedDlqRoutingKey⟩⟩,
    ⟨n.successDlq, true, none⟩,
    ⟨n.failedDlq, true, none⟩]
  bindings := [
    ⟨n.successQueue, n.exchange, n.successRoutingKey⟩,
    ⟨n.failedQueue, n.exchange, n.failedRoutingKey⟩,
    ⟨n.successDlq, n.dlxExchange, n.successDlqRoutingKey⟩,
    ⟨n.failedDlq, n.dlxExchange, n.failedDlqRoutingKey⟩]

end TopologyNames
end OutcomeRelay
