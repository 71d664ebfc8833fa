import OutcomeRelay.Broker.Error
import OutcomeRelay.Handler.Logging
import OutcomeRelay.Retry.Policy
import OutcomeRelay.Topology.Names

/-!
Handlers by queue, at most one for each, and the errors of putting a dispatcher together.
-/

namespace OutcomeRelay

inductive DispatchError where
  | duplicateHandler (queue : String)
  | noHandlers
  | invalidRetryPolicy (queue : String) (fault : RetryFault)
  | bus (error : BusError)
  deriving DecidableEq, Repr

def DispatchError.message : DispatchError → String
  | .duplicateHandler q => s!"A handler is already registered for queue '{q}'"
  | .noHandlers => "No handlers registered"
  | .invalidRetryPolicy q f => s!"Invalid retry policy for queue '{q}': {f.reason}"
  | .bus e => e.message

structure HandlerRegistry (α : Type) where
  entries : List (String × α) := []

namespace HandlerRegistry

variable {α : Type}

def get? (r : HandlerRegistry α) (queue : String) : Option α :=
  r.entries.lookup queue

def register (r : HandlerRegistry α) (queue : String) (handler : α) :
    Except DispatchError (HandlerRegistry α) :=
  if (r.get? queue).isSome then .error (.duplicateHandler queue)
  else .ok ⟨r.entries ++ [(queue, handler)]⟩

def sorted (r : HandlerRegistry α) : List (String × α) :=
  r.entries.mergeSort fun a b => decide (a.1 ≤ b.1)

def queues (r : HandlerRegistry α) : List String :=
  r.sorted.map (·.1)

def size (r : HandlerRegistry α) : Nat :=
  r.entries.length

def standard (names : TopologyNames) (simulateFailure : Bool) :
    Except DispatchError (HandlerRegistry LoggingHandler) := do
  let r ← register {} names.successQueue ⟨.success, simulateFailure⟩
  r.register names.failedQueue ⟨.failed, simulateFailure⟩

end HandlerRegistry
end OutcomeRelay
