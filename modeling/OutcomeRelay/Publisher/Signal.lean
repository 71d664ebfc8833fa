import OutcomeRelay.Publisher.Send

/-!
Signals: what became of each message after its publish call returned. A confirm resolves to the
broker's verdict, to a failure, or not in time; each resolution gives one confirm signal, and a
return signal besides if the broker gave the message back.
-/

namespace OutcomeRelay

inductive ReturnReason where
  | sizeExceeded
  | noBinding
  | noConsumers
  | connectionClosing
  | invalidPath
  | permissionDenied
  | notFound
  | resourceLocked
  | preconditionFailed
  | notAllowed
  | brokerInternalError
  | unknown (code : Nat)
  deriving DecidableEq, Repr

namespace ReturnReason

def known : List (Nat × ReturnReason × String) :=
  [(311, .sizeExceeded, "size-exceeded"), (312, .noBinding, "no-binding"),
    (313, .noConsumers, "no-consumers"), (320, .connectionClosing, "connection-closing"),
    (402, .invalidPath, "invalid-path"), (403, .permissionDenied, "permission-denied"),
    (404, .notFound, "not-found"), (405, .resourceLocked, "resource-locked"),
    (406, .preconditionFailed, "precondition-failed"), (530, .notAllowed, "not-allowed"),
    (541, .brokerInternalError, "broker-internal-error")]

def ofCode (code : Nat) : ReturnReason :=
  match known.find? fun k => k.1 == code with
  | some k => k.2.1
  | none => .unknown code

def text (r : ReturnReason) : String :=
  match r with
  | .unknown code => s!"unknown({code})"
  | _ =>
    match known.find? fun k => k.2.1 == r with
    | some k => k.2.2
    | none => ""

def isSoft : ReturnReason → Bool
  | .sizeExceeded | .noBinding | .noConsumers | .connectionClosing => true
  | _ => false

end ReturnReason

inductive ConfirmOutcome where
  | ack
  | nack (cause : Option String)
  | timedOut
  deriving DecidableEq, Repr

structure ConfirmSignal where
  messageId : String
  target : RoutingTarget
  outcome : ConfirmOutcome
  body : Bytes
  deriving DecidableEq, Repr

structure ReturnSignal where
  messageId : String
  code : Nat
  text : String
  exchange : String
  routingKey : String
  body : Bytes
  deriving DecidableEq, Repr

def ReturnSignal.reason (s : ReturnSignal) : ReturnReason :=
  .ofCode s.code

namespace Publisher

inductive Resolution where
  | confirmed (confirm : Confirm)
  | failed (error : BusError)
  | timedOut
  deriving DecidableEq, Repr

/-- A returned message counts as acknowledged, a failed confirm as refused. -/
def Resolution.outcome : Resolution → ConfirmOutcome
  | .confirmed .ack => .ack
  | .confirmed (.returned _) => .ack
  | .confirmed (.nack cause) => .nack cause
  | .failed e => .nack (some e.message)
  | .timedOut => .timedOut

def confirmSignal (o : Outbound) (r : Resolution) : ConfirmSignal where
  messageId := o.messageId
  target := targetOf o
  outcome := r.outcome
  body := o.body

/-- A returned message that lost its id is known by the id that it was sent under. -/
def returnSignal? (o : Outbound) : Resolution → Option ReturnSignal
  | .confirmed (.returned m) => some {
      messageId := m.messageId.getD o.messageId
      code := m.code
      text := m.text
      exchange := m.exchange
      routingKey := m.routingKey
      body := m.body }
  | _ => none

inductive Signal where
  | confirmed (s : ConfirmSignal)
  | returned (s : ReturnSignal)
  deriving DecidableEq, Repr

namespace Signal

inductive Channel where
  | confirms
  | returns
  deriving DecidableEq, Repr

def channel : Signal → Channel
  | .confirmed _ => .confirms
  | .returned _ => .returns

def confirm? : Signal → Option ConfirmSignal
  | .confirmed s => some s
  | .returned _ => none

def return? : Signal → Option ReturnSignal
  | .confirmed _ => none
  | .returned s => some s

end Signal

/-- All that is told of a message whose confirm ends like this, a return before anything else. -/
def signals (o : Outbound) (r : Resolution) : List Signal :=
  (returnSignal? o r).toList.map .returned ++ [.confirmed (confirmSignal o r)]

end Publisher
end OutcomeRelay
