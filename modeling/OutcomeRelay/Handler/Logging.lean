import OutcomeRelay.Delivery.Message
import OutcomeRelay.Delivery.Attempt
import OutcomeRelay.Log

/-!
The built-in handler of the two work queues. It logs each message, and fails every invocation when
failures are to be simulated.
-/

namespace OutcomeRelay

inductive OutcomeKind where
  | success
  | failed
  deriving DecidableEq, Repr

def OutcomeKind.name : OutcomeKind → String
  | .success => "success"
  | .failed => "failed"

structure LoggingHandler where
  kind : OutcomeKind
  simulateFailure : Bool := false
  deriving DecidableEq, Repr

namespace LoggingHandler

def simulatedFailure : ErrorChain :=
  { text := "Simulated processing failure" }

def messageLog (h : LoggingHandler) (m : PaymentMessage) : Log.Entry :=
  let outcome : String × Log.Field := ("outcome", .shown h.kind.name)
  let about : List (String × Log.Field) :=
    [("order_id", .text (m.orderId?.getD "-")),
      ("message", .shown (Json.Value.text (.object m.fields)))]
  if m.isRetry then
    Log.info .handler "Retrying message processing"
      (outcome :: ("retry_count", Log.nat (m.attempt - 1)) :: about)
  else Log.info .handler "Processing message for the first time" (outcome :: about)

def handle (h : LoggingHandler) (m : PaymentMessage) : HandlerResult × List Log.Entry :=
  if h.simulateFailure then
    (.failed simulatedFailure,
      [h.messageLog m,
        Log.info .handler "Simulating processing failure" [("outcome", .shown h.kind.name)]])
  else (.done, [h.messageLog m])

end LoggingHandler
end OutcomeRelay
