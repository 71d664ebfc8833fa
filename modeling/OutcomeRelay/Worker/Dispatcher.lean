import OutcomeRelay.Handler.Registry
import OutcomeRelay.Worker.Basic
import OutcomeRelay.Worker.Config

/-!
Starting a dispatcher. Retry settings of every queue with a handler are checked first, then the
queues are consumed one after another in the order of their names. If one is refused, the consumers
that are open are closed again and no worker starts.
-/

namespace OutcomeRelay

/-- Settings of a dispatcher; a queue that is not named has the default ones. -/
structure DispatcherConfig where
  queues : List (String × QueueConfig) := []
  grace : Duration := ({} : ConsumersConfig).shutdownGrace

namespace DispatcherConfig

def queue (c : DispatcherConfig) (name : String) : QueueConfig :=
  (c.queues.lookup name).getD {}

def withQueue (c : DispatcherConfig) (name : String) (q : QueueConfig) : DispatcherConfig :=
  { c with queues := (name, q) :: c.queues }

def ofConsumers (names : TopologyNames) (c : ConsumersConfig) : DispatcherConfig :=
  { withQueue (withQueue {} names.successQueue c.success) names.failedQueue c.failed with
    grace := c.shutdownGrace }

end DispatcherConfig

namespace Dispatcher

structure Prepared (α : Type) where
  queue : String
  handler : α
  config : QueueConfig
  policy : RetryPolicy

def prepareEach {α : Type} (c : DispatcherConfig) :
    List (String × α) → Except DispatchError (List (Prepared α))
  | [] => .ok []
  | (queue, handler) :: rest =>
    let config := c.queue queue
    match config.retry.toPolicy? with
    | .error f => .error (.invalidRetryPolicy queue f)
    | .ok policy => (prepareEach c rest).map (⟨queue, handler, config, policy⟩ :: ·)

def prepare {α : Type} (c : DispatcherConfig) (r : HandlerRegistry α) :
    Except DispatchError (List (Prepared α)) :=
  if r.entries.isEmpty then .error .noHandlers else prepareEach c r.sorted

def consumerTag (queue unique : String) : String :=
  s!"payment-relay.{queue}.{unique}"

namespace Prepared

variable {α : Type}

def worker (p : Prepared α) (grace : Duration) : Worker :=
  .start p.queue p.config.effectiveConcurrency grace

def startLog (p : Prepared α) : Log.Entry :=
  Log.info .dispatcher "Starting queue worker"
    [("queue", .shown p.queue), ("concurrency", Log.nat p.config.effectiveConcurrency),
      ("prefetch", Log.nat p.config.effectivePrefetch),
      ("max_attempts", Log.nat p.policy.maxAttempts)]

end Prepared

/-- Where starting is. `γ` is a consumer that was opened. -/
inductive Opening (α γ : Type) where
  | consuming (opened : List (Prepared α × γ)) (next : Prepared α) (rest : List (Prepared α))
  | closing (left : List γ) (error : BusError)
  | started (workers : List (Prepared α × γ))
  | failed (error : BusError)

namespace Opening

variable {α γ : Type}

def proceed (opened : List (Prepared α × γ)) : List (Prepared α) → Opening α γ
  | [] => .started opened
  | p :: rest => .consuming opened p rest

def closeAll (e : BusError) : List γ → Opening α γ
  | [] => .failed e
  | left => .closing left e

def consumed (opened : List (Prepared α × γ)) (p : Prepared α) (rest : List (Prepared α)) :
    Except BusError γ → Opening α γ
  | .ok consumer => proceed (opened ++ [(p, consumer)]) rest
  | .error e => closeAll e (opened.map (·.2))

def closed (left : List γ) (e : BusError) : Opening α γ :=
  closeAll e left.tail

end Opening

/-- Start on a broker of state `σ`; the fuel bounds the calls that are left. -/
def openAll {α γ σ : Type} (consume : σ → Prepared α → σ × Except BusError γ)
    (close : σ → γ → σ) : Nat → σ → Opening α γ → σ × Opening α γ
  | 0, s, o => (s, o)
  | fuel + 1, s, .consuming opened p rest =>
    let answer := consume s p
    openAll consume close fuel answer.1 (Opening.consumed opened p rest answer.2)
  | fuel + 1, s, .closing left e =>
    openAll consume close fuel (left.head?.elim s (close s)) (Opening.closed left e)
  | _, s, o => (s, o)

def shutdownLog : Log.Entry :=
  Log.info .dispatcher "Dispatcher shutting down" []

def workerFailedLog (message : String) : Log.Entry :=
  Log.error .dispatcher "Queue worker task failed" [("error", .shown (taskPanic message))]

end Dispatcher
end OutcomeRelay
