import OutcomeRelay.Decimal.Basic
import OutcomeRelay.Event.Masking
import OutcomeRelay.Text.Blank
import OutcomeRelay.Timestamp.Basic

/-!
Payment outcome events and the rules a valid one obeys. `validate` names the first rule that an
event breaks, in the order of the rules below.
-/

namespace OutcomeRelay

inductive PaymentMethod where
  | creditCard
  | paypal
  | bankTransfer
  deriving DecidableEq, Repr

inductive PaymentStatus where
  | success
  | failed
  deriving DecidableEq, Repr

def PaymentMethod.name : PaymentMethod → String
  | .creditCard => "CREDIT_CARD"
  | .paypal => "PAYPAL"
  | .bankTransfer => "BANK_TRANSFER"

def PaymentStatus.name : PaymentStatus → String
  | .success => "SUCCESS"
  | .failed => "FAILED"

structure MethodDetails where
  cardNumber : Option String := none
  cardExpiry : Option String := none
  paypalEmail : Option String := none
  bankAccount : Option String := none
  bankName : Option String := none
  deriving DecidableEq, Repr

namespace MethodDetails

def card (number expiry : String) : MethodDetails :=
  { cardNumber := some (Masking.mask number), cardExpiry := some expiry }

def paypal (email : String) : MethodDetails :=
  { paypalEmail := some email }

def bank (account name : String) : MethodDetails :=
  { bankAccount := some (Masking.mask account), bankName := some name }

def required (d : MethodDetails) : PaymentMethod → List (String × Option String)
  | .creditCard => [("cardNumber", d.cardNumber), ("cardExpiry", d.cardExpiry)]
  | .paypal => [("paypalEmail", d.paypalEmail)]
  | .bankTransfer => [("bankAccount", d.bankAccount), ("bankName", d.bankName)]

def missing? (d : MethodDetails) (m : PaymentMethod) : Option String :=
  ((d.required m).find? fun f => f.2.all Text.blank).map (·.1)

end MethodDetails

inductive EventError where
  | missingOrderId
  | nonPositiveAmount (amount : Decimal)
  | missingCurrency
  | missingMethodField (method : PaymentMethod) (field : String)
  | missingTransactionId
  deriving DecidableEq, Repr

def EventError.message : EventError → String
  | .missingOrderId => "Order ID must not be empty"
  | .nonPositiveAmount a => s!"Amount must be greater than zero, got {a.text}"
  | .missingCurrency => "Currency must not be empty"
  | .missingMethodField m f =>
    s!"Validation failed for {m.name} payment: {f} must not be empty"
  | .missingTransactionId => "SUCCESS outcome requires a transaction ID"

structure Outcome where
  orderId : String
  amount : Decimal
  currency : String
  paymentMethod : PaymentMethod
  paymentStatus : PaymentStatus
  details : MethodDetails
  transactionId : String
  retryCount : UInt32
  deriving DecidableEq, Repr

structure OutcomeEvent extends Outcome where
  id : UInt64
  createdAt : Timestamp
  updatedAt : Timestamp
  deriving DecidableEq, Repr

namespace Outcome

def validate (o : Outcome) : Except EventError Unit :=
  if Text.blank o.orderId then .error .missingOrderId
  else if !o.amount.isPositive then .error (.nonPositiveAmount o.amount)
  else if Text.blank o.currency then .error .missingCurrency
  else match o.details.missing? o.paymentMethod with
    | some field => .error (.missingMethodField o.paymentMethod field)
    | none =>
      if o.paymentStatus = .success ∧ Text.blank o.transactionId then .error .missingTransactionId
      else .ok ()

def toEvent (o : Outcome) (id : UInt64) (now : Timestamp) : Except EventError OutcomeEvent :=
  match o.validate with
  | .ok _ => .ok { o with id := id, createdAt := now, updatedAt := now }
  | .error e => .error e

end Outcome

def OutcomeEvent.validate (e : OutcomeEvent) : Except EventError Unit :=
  e.toOutcome.validate

structure FailureNotice where
  message : String
  createdAt : Timestamp
  deriving DecidableEq, Repr

end OutcomeRelay
