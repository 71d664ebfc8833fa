import OutcomeRelay.Delivery.Message
import OutcomeRelay.Delivery.Recovery
import OutcomeRelay.Retry.Backoff

/-!
The life of a delivery, from its receipt to its settlement. A delivery is handled, waits and is
handled again until an invocation succeeds or attempts run out; then it is acknowledged or given to
recovery. It stays unsettled meanwhile. A phase waits for one answer from outside, and each answer
gives the next phase and what is logged on the way.
-/

namespace OutcomeRelay

inductive DeliveryOutcome where
  | acked (attempts : Nat)
  | deadLettered (attempts : Nat)
  | ackFailed (attempts : Nat)
  deriving DecidableEq, Repr

namespace DeliveryRun

structure Job where
  delivery : Delivery
  policy : RetryPolicy
  deriving DecidableEq, Repr

structure Progress where
  fields : MessageFields
  tracker : DeliveryAttempt
  waits : Backoff
  deriving Repr

structure Reject where
  attempts : Nat
  body : Bytes
  context : DeliveryContext
  chain : List String
  deriving DecidableEq, Repr

inductive Phase where
  | handling (p : Progress)
  | waiting (delay : Duration) (p : Progress)
  | acking (attempts : Nat)
  | rejecting (r : Reject)
  | finished (outcome : DeliveryOutcome)
  deriving Repr

inductive AckerCall where
  | ack
  | reject (requeue : Bool)
  deriving DecidableEq, Repr

def Phase.call? : Phase → Option AckerCall
  | .acking _ => some .ack
  | .rejecting _ => some (.reject false)
  | _ => none

def Progress.message (p : Progress) (job : Job) : PaymentMessage where
  fields := p.fields
  queue := job.delivery.queue
  routingKey := job.delivery.routingKey
  messageId := job.delivery.messageId
  redelivered := job.delivery.redelivered
  attempt := p.tracker.count

def handleLog (job : Job) (attempt : Nat) : Log.Entry :=
  let counts := [("attempt", Log.nat attempt), ("max_attempts", Log.nat job.policy.maxAttempts)]
  if attempt = 1 then Log.info .delivery "Handling message" counts
  else Log.info .delivery "Retrying message" (counts ++ [("retry_count", Log.nat (attempt - 1))])

def Progress.handle (p : Progress) (job : Job) : Phase × List Log.Entry :=
  let p := { p with tracker := p.tracker.begin }
  (.handling p, [handleLog job p.tracker.count])

def giveUp (job : Job) (body : Bytes) (attempts : Nat) (chain : List String) :
    Phase × List Log.Entry :=
  let context := DeliveryContext.ofDelivery job.delivery (some attempts)
  (.rejecting { attempts, body, context, chain }, Recovery.log context body chain)

def start (job : Job) : Phase × List Log.Entry :=
  let received := Log.info .delivery "Message received"
    [("routing_key", .shown job.delivery.routingKey),
      ("redelivered", .flag job.delivery.redelivered),
      ("death_count", .shown (Text.optional (job.delivery.deathCount.map toString)))]
  match PaymentMessage.decode job.delivery.body with
  | .error e =>
    let next := giveUp job job.delivery.body 0 e.chain
    (next.1, received ::
      Log.warn .delivery "Undecodable message, skipping retries" [("error", .shown e.message)]
        :: next.2)
  | .ok fields =>
    let next := Progress.handle ⟨fields, { body := job.delivery.body }, job.policy.backoff⟩ job
    (next.1, received :: next.2)

def Progress.failed (p : Progress) (job : Job) (e : ErrorChain) : Phase × List Log.Entry :=
  let counts (rest : List (String × Log.Field)) : List (String × Log.Field) :=
    [("attempt", Log.nat p.tracker.count), ("max_attempts", Log.nat job.policy.maxAttempts),
      ("error", .shown e.text)] ++ rest
  let p' := { p with tracker := p.tracker.recordFailure e }
  if p.tracker.exhausted job.policy.maxAttempts then
    let next := giveUp job p.tracker.body p.tracker.count e.texts
    (next.1, Log.warn .delivery "Handler failed, attempts exhausted" (counts []) :: next.2)
  else
    let (delay, waits) := match job.policy.nextWait? p.waits with
      | some (delay, waits) => (delay, waits)
      | none => (job.policy.initialInterval, p.waits)
    (.waiting delay { p' with waits },
      [Log.warn .delivery "Handler failed, retry scheduled"
        (counts [("delay_ms", Log.nat delay.millis)])])

def panicLog : HandlerResult → List Log.Entry
  | .panicked m => [Log.error .delivery "Handler panicked" [("error", .shown (panicError m).text)]]
  | _ => []

def Progress.handled (p : Progress) (job : Job) (r : HandlerResult) : Phase × List Log.Entry :=
  match r.failure? with
  | none => (.acking p.tracker.count, [])
  | some e =>
    let next := p.failed job e
    (next.1, panicLog r ++ next.2)

def acked (attempts : Nat) : Except BusError Unit → Phase × List Log.Entry
  | .ok _ =>
    (.finished (.acked attempts),
      [Log.debug .delivery "Message acknowledged" [("attempts", Log.nat attempts)]])
  | .error e =>
    (.finished (.ackFailed attempts),
      [Log.error .delivery "Failed to acknowledge message"
        [("attempts", Log.nat attempts), ("error", .shown e.message)]])

/-- The broker's answer to a reject. The delivery counts as dead-lettered either way. -/
def Reject.rejected (r : Reject) (answer : Except BusError Unit) :
    Phase × DeadLetterRecord × List Log.Entry :=
  (.finished (.deadLettered r.attempts),
    Recovery.record r.context r.body r.chain answer,
    Recovery.rejectLog r.context answer)

end DeliveryRun
end OutcomeRelay
