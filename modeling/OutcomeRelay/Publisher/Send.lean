import OutcomeRelay.Log
import OutcomeRelay.Publisher.Basic
import OutcomeRelay.Retry.Backoff

/-!
Sending with retries. A call goes through its waits, the first of which takes no time, and sends
after each of them, until the broker takes the message or no wait is left. The same message is sent
each time, and what the broker says of it later never sends it again.
-/

namespace OutcomeRelay.Publisher

/-- The waits of a call that are still to come: none at all before the first attempt, then those of
the backoff. -/
structure Waits where
  first : Bool := true
  backoff : Backoff
  deriving DecidableEq, Repr

namespace Waits

def ofConfig (c : PublisherConfig) : Waits where
  backoff := ⟨c.retryDelay, some (c.attempts - 1)⟩

def next? (w : Waits) : Option (Duration × Waits) :=
  if w.first then some (0, { w with first := false })
  else (w.backoff.next? id w.backoff.upcoming).map fun r => (r.1, { w with backoff := r.2 })

end Waits

inductive Sending where
  | attempt (n : Nat) (waits : Waits)
  | pause (n : Nat) (delay : Duration) (waits : Waits)
  | accepted (receipt : Receipt)
  | exhausted (error : PublishError)
  deriving DecidableEq, Repr

def targetOf (o : Outbound) : RoutingTarget :=
  ⟨o.exchange, o.routingKey⟩

namespace Sending

def unattempted : BusError :=
  .publish "no publish attempt was made"

def next (c : PublisherConfig) (n : Nat) (last : Option BusError) (waits : Waits) : Sending :=
  match waits.next? with
  | some (delay, waits) => if n = 0 then .attempt 1 waits else .pause (n + 1) delay waits
  | none => .exhausted (.exhausted c.attempts (last.getD unattempted))

def start (c : PublisherConfig) : Sending :=
  next c 0 none (.ofConfig c)

def sent (c : PublisherConfig) (o : Outbound) (n : Nat) (waits : Waits) :
    Except BusError Unit → Sending
  | .ok _ => .accepted ⟨o.messageId, targetOf o, n⟩
  | .error e => next c n (some e) waits

def woken : Sending → Sending
  | .pause n _ waits => .attempt n waits
  | s => s

def attemptLog (c : PublisherConfig) (o : Outbound) (n : Nat) : Log.Entry :=
  Log.info .publisher "Publishing message"
    [("attempt", Log.nat n), ("max_attempts", Log.nat c.attempts),
      ("payload", .shown (Text.decodeLossy o.body))]

def sentLog (c : PublisherConfig) (o : Outbound) (n : Nat) (after : Sending) :
    Except BusError Unit → List Log.Entry
  | .ok _ => [Log.debug .publisher "Message handed to broker" [("attempt", Log.nat n)]]
  | .error e =>
    Log.warn .publisher "Publish attempt failed, broker unreachable"
        [("attempt", Log.nat n), ("max_attempts", Log.nat c.attempts),
          ("error", .shown e.message)] ::
      match after with
      | .exhausted (.exhausted attempts source) =>
        [Log.error .publisher "Publish failed, retries exhausted; message not delivered"
          [("attempts", Log.nat attempts), ("error", .shown source.message),
            ("payload", .shown (Text.decodeLossy o.body))]]
      | _ => []

end Sending
end OutcomeRelay.Publisher
