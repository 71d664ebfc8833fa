import OutcomeRelay.Text.Utf8

/-!
What a handler's invocations come to, and the book that is kept of them for one delivery.
-/

namespace OutcomeRelay

structure ErrorChain where
  text : String
  sources : List String := []
  deriving DecidableEq, Repr

def ErrorChain.texts (e : ErrorChain) : List String :=
  e.text :: e.sources

inductive HandlerResult where
  | done
  | failed (error : ErrorChain)
  | panicked (message : Option String)
  deriving DecidableEq, Repr

def panicError (message : Option String) : ErrorChain where
  text := "Handler panicked: " ++ message.getD "non-string panic payload"

def HandlerResult.failure? : HandlerResult → Option ErrorChain
  | .done => none
  | .failed e => some e
  | .panicked m => some (panicError m)

structure DeliveryAttempt where
  body : Bytes
  count : Nat := 0
  lastError : Option ErrorChain := none
  deriving DecidableEq, Repr

namespace DeliveryAttempt

def begin (a : DeliveryAttempt) : DeliveryAttempt :=
  { a with count := a.count + 1 }

def recordFailure (a : DeliveryAttempt) (e : ErrorChain) : DeliveryAttempt :=
  { a with lastError := some e }

def exhausted (a : DeliveryAttempt) (maxAttempts : Nat) : Bool :=
  maxAttempts ≤ a.count

end DeliveryAttempt
end OutcomeRelay
