import OutcomeRelay.Event.Wire

/-!
A delivered message as a handler sees it. Its body is kept as a free-form object, so that fields
nobody knows never stop it from being handled; a strict view as an event is made on demand.
-/

namespace OutcomeRelay

open Json

inductive DecodeError where
  | json (cause : Cause)
  | notAnObject
  deriving DecidableEq, Repr

namespace DecodeError

def message : DecodeError → String
  | .json c => s!"Message body is not valid JSON: {c.text}"
  | .notAnObject => "Message body is JSON but not an object"

def chain (e : DecodeError) : List String :=
  e.message :: match e with
    | .json c => [c.text]
    | .notAnObject => []

end DecodeError

abbrev MessageFields := List (String × Value)

/-- One attempt at a message. Attempts are counted from one. -/
structure PaymentMessage where
  fields : MessageFields
  queue : String
  routingKey : String
  messageId : Option String
  redelivered : Bool
  attempt : Nat
  deriving Repr

namespace PaymentMessage

def decode (body : Bytes) : Except DecodeError MessageFields :=
  match (Source.parse body).value? with
  | .error e => .error (.json e.cause)
  | .ok (.object ms) => .ok ms
  | .ok _ => .error .notAnObject

def get? (m : PaymentMessage) (key : String) : Option Value :=
  Value.lookup key m.fields

def text? (m : PaymentMessage) (key : String) : Option String :=
  (m.get? key).bind Value.string?

def orderId? (m : PaymentMessage) : Option String :=
  m.text? "orderId"

def paymentStatus? (m : PaymentMessage) : Option String :=
  m.text? "paymentStatus"

def isRetry (m : PaymentMessage) : Bool :=
  1 < m.attempt

def toOutcome (m : PaymentMessage) : Except Json.Error OutcomeEvent :=
  OutcomeEvent.ofValue? (.object m.fields)

end PaymentMessage
end OutcomeRelay
