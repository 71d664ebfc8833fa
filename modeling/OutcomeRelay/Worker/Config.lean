import OutcomeRelay.Retry.Policy
import OutcomeRelay.Settings.Reader

/-!
Settings of the consumers of the two work queues. Without a prefetch of its own a queue is given one
message for each delivery that may be handled at once.
-/

namespace OutcomeRelay

structure QueueConfig where
  concurrency : Nat := 1
  prefetch : Option Nat := none
  retry : RetryConfig := {}
  deriving DecidableEq, Repr

namespace QueueConfig

def effectiveConcurrency (c : QueueConfig) : Nat :=
  max c.concurrency 1

def effectivePrefetch (c : QueueConfig) : Nat :=
  c.prefetch.getD (min c.effectiveConcurrency (UInt16.size - 1))

end QueueConfig

structure ConsumersConfig where
  success : QueueConfig := {}
  failed : QueueConfig := {}
  shutdownGraceSecs : Nat := 30
  deriving DecidableEq, Repr

def ConsumersConfig.shutdownGrace (c : ConsumersConfig) : Duration :=
  .ofSeconds c.shutdownGraceSecs

section Settings

open Settings

variable {σ ε : Type} (r : Reader σ ε)

def RetryConfig.fields : List (Field σ ε RetryConfig) :=
  [Reader.field "max_attempts" r.u32? fun v c => { c with maxAttempts := v },
    Reader.field "initial_interval_ms" r.u64? fun v c => { c with initialIntervalMs := v },
    Reader.field "multiplier" r.single? fun v c => { c with multiplier := v },
    Reader.field "max_interval_ms" r.u64? fun v c => { c with maxIntervalMs := v }]

def RetryConfig.read : σ → Except ε RetryConfig :=
  r.record? "RetryConfig" (fields r) {}

def QueueConfig.fields : List (Field σ ε QueueConfig) :=
  [Reader.field "concurrency" r.size? fun v c => { c with concurrency := v },
    Reader.field "prefetch" (r.nullable r.u16?) fun v c => { c with prefetch := v },
    Reader.field "retry" (RetryConfig.read r) fun v c => { c with retry := v }]

def QueueConfig.read : σ → Except ε QueueConfig :=
  r.record? "QueueConsumerConfig" (fields r) {}

def ConsumersConfig.fields : List (Field σ ε ConsumersConfig) :=
  [Reader.field "success" (QueueConfig.read r) fun v c => { c with success := v },
    Reader.field "failed" (QueueConfig.read r) fun v c => { c with failed := v },
    Reader.field "shutdown_grace_secs" r.u64? fun v c => { c with shutdownGraceSecs := v }]

def ConsumersConfig.read : σ → Except ε ConsumersConfig :=
  r.record? "ConsumersConfig" (fields r) {}

end Settings
end OutcomeRelay
