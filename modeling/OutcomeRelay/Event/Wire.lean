import OutcomeRelay.Decimal.Reader
import OutcomeRelay.Event.Basic
import OutcomeRelay.Json.Printer
import OutcomeRelay.Json.Reader
import OutcomeRelay.Timestamp.Reader

/-!
The wire form of events and notices: JSON objects with the fields in a fixed order, absent details
left out. Reading takes the fields in any order, ignores unknown ones and reports the first fault.
Details are read after all else, from the fields that are not the event's own.
-/

namespace OutcomeRelay

open Json

def PaymentMethod.variants : List (String × PaymentMethod) :=
  [.creditCard, .paypal, .bankTransfer].map fun m => (m.name, m)

def PaymentStatus.variants : List (String × PaymentStatus) :=
  [.success, .failed].map fun s => (s.name, s)

namespace Json.Document

def decimal? (d : Document) : Except Error Decimal :=
  let expected := "a Decimal type representing a fixed-point number"
  let orElse (r : Option Decimal) (e : Error) : Except Error Decimal := r.elim (.error e) .ok
  match d with
  | .number (.ok (.natural n)) =>
    orElse (Decimal.ofParts? false n 0) (.invalidValue (.integer n) expected)
  | .number (.ok (.negative n)) =>
    orElse (Decimal.ofParts? true n 0) (.invalidValue (.integer (-(n : Int))) expected)
  | .number (.ok (.float x)) =>
    orElse (Decimal.ofText? (x.plain .double)) (.invalidValue .floating expected)
  | .string (.text s) => orElse (Decimal.ofText? s) (.invalidValue (.text s) expected)
  | d => .error (d.mismatch expected)

def timestamp? : Document → Except Error Timestamp
  | .string (.text s) => (Timestamp.ofText? s).elim (.error .otherData) .ok
  | d => .error (d.mismatch "an RFC 3339 formatted date and time string")

end Json.Document

def once {α β : Type} (name : String) (old : Option β) (value : Except Json.Error β)
    (store : β → α) : Except Json.Error α :=
  match old with
  | some _ => .error (.duplicateField name)
  | none => value.map store

def need {α : Type} (name : String) : Option α → Except Json.Error α
  | some a => .ok a
  | none => .error (.missingField name)

namespace MethodDetails

def fields (d : MethodDetails) : List (String × Option String) :=
  [("cardNumber", d.cardNumber), ("cardExpiry", d.cardExpiry), ("paypalEmail", d.paypalEmail),
    ("bankAccount", d.bankAccount), ("bankName", d.bankName)]

def members (d : MethodDetails) : List (String × Value) :=
  d.fields.filterMap fun f => f.2.map fun s => (f.1, .string s)

/-- Details while they are read: a field that was met holds its text or null. -/
structure Partial where
  cardNumber : Option (Option String) := none
  cardExpiry : Option (Option String) := none
  paypalEmail : Option (Option String) := none
  bankAccount : Option (Option String) := none
  bankName : Option (Option String) := none

def Partial.finish (p : Partial) : MethodDetails where
  cardNumber := p.cardNumber.join
  cardExpiry := p.cardExpiry.join
  paypalEmail := p.paypalEmail.join
  bankAccount := p.bankAccount.join
  bankName := p.bankName.join

def textOrNull : Document → Except Error (Option String)
  | .null => .ok none
  | d => d.text?.map some

def Partial.take (p : Partial) (name : String) (d : Document) : Except Error Partial :=
  match name with
  | "cardNumber" => once name p.cardNumber (textOrNull d) fun v => { p with cardNumber := some v }
  | "cardExpiry" => once name p.cardExpiry (textOrNull d) fun v => { p with cardExpiry := some v }
  | "paypalEmail" =>
    once name p.paypalEmail (textOrNull d) fun v => { p with paypalEmail := some v }
  | "bankAccount" =>
    once name p.bankAccount (textOrNull d) fun v => { p with bankAccount := some v }
  | "bankName" => once name p.bankName (textOrNull d) fun v => { p with bankName := some v }
  | _ => .ok p

def ofMembers? (ms : List (String × Value)) : Except Error MethodDetails :=
  (ms.foldlM (fun p m => Partial.take p m.1 (.ofValue m.2)) ({} : Partial)).map Partial.finish

/-- Details on their own: an object, or an array of the fields in order. -/
def ofDocument? : Document → Except Error MethodDetails
  | .object ms _ =>
    (ms.foldlM (fun p m => do Partial.take p (← Document.key m) m.2) ({} : Partial)).map
      Partial.finish
  | .array is _ =>
    let names := ["cardNumber", "cardExpiry", "paypalEmail", "bankAccount", "bankName"]
    do
      let p ← (names.zip is).foldlM (fun p m => Partial.take p m.1 m.2) ({} : Partial)
      if names.length < is.length then throw .otherData
      return p.finish
  | d => .error (d.mismatch "struct MethodDetails")

end MethodDetails

namespace OutcomeEvent

def members (e : OutcomeEvent) : List (String × Value) :=
  [("id", .nat e.id.toNat), ("orderId", .string e.orderId), ("amount", .string e.amount.text),
    ("currency", .string e.currency), ("paymentMethod", .string e.paymentMethod.name),
    ("paymentStatus", .string e.paymentStatus.name)]
  ++ e.details.members
  ++ [("transactionId", .string e.transactionId), ("retryCount", .nat e.retryCount.toNat),
    ("createdAt", .string e.createdAt.text), ("updatedAt", .string e.updatedAt.text)]

def toValue (e : OutcomeEvent) : Value :=
  .object e.members

def encode (e : OutcomeEvent) : Bytes :=
  Text.encode e.toValue.text

structure Partial where
  id : Option UInt64 := none
  orderId : Option String := none
  amount : Option Decimal := none
  currency : Option String := none
  paymentMethod : Option PaymentMethod := none
  paymentStatus : Option PaymentStatus := none
  transactionId : Option String := none
  retryCount : Option UInt32 := none
  createdAt : Option Timestamp := none
  updatedAt : Option Timestamp := none
  others : List (String × Value) := []

def Partial.take (origin : Origin) (p : Partial) (name : String) (d : Document) :
    Except Error Partial :=
  match name with
  | "id" =>
    once name p.id ((d.natural? UInt64.size "u64").map UInt64.ofNat) fun v =>
      { p with id := some v }
  | "orderId" => once name p.orderId d.text? fun v => { p with orderId := some v }
  | "amount" => once name p.amount d.decimal? fun v => { p with amount := some v }
  | "currency" => once name p.currency d.text? fun v => { p with currency := some v }
  | "paymentMethod" =>
    once name p.paymentMethod (d.variant? origin PaymentMethod.variants) fun v =>
      { p with paymentMethod := some v }
  | "paymentStatus" =>
    once name p.paymentStatus (d.variant? origin PaymentStatus.variants) fun v =>
      { p with paymentStatus := some v }
  | "transactionId" => once name p.transactionId d.text? fun v => { p with transactionId := some v }
  | "retryCount" =>
    once name p.retryCount ((d.natural? UInt32.size "u32").map UInt32.ofNat) fun v =>
      { p with retryCount := some v }
  | "createdAt" => once name p.createdAt d.timestamp? fun v => { p with createdAt := some v }
  | "updatedAt" => once name p.updatedAt d.timestamp? fun v => { p with updatedAt := some v }
  | _ => (d.value? 126).map fun v => { p with others := p.others ++ [(name, v)] }

def Partial.finish (p : Partial) : Except Error OutcomeEvent := do
  let id ← need "id" p.id
  let orderId ← need "orderId" p.orderId
  let amount ← need "amount" p.amount
  let currency ← need "currency" p.currency
  let paymentMethod ← need "paymentMethod" p.paymentMethod
  let paymentStatus ← need "paymentStatus" p.paymentStatus
  let createdAt ← need "createdAt" p.createdAt
  let updatedAt ← need "updatedAt" p.updatedAt
  let details ← MethodDetails.ofMembers? p.others
  return {
    id, orderId, amount, currency, paymentMethod, paymentStatus, details, createdAt, updatedAt
    transactionId := p.transactionId.getD ""
    retryCount := p.retryCount.getD 0 }

def ofDocument? (origin : Origin) : Document → Except Error OutcomeEvent
  | .object ms closing => do
    let p ← ms.foldlM (fun p m => do Partial.take origin p (← Document.key m) m.2) ({} : Partial)
    closing.check
    p.finish
  | d => .error (d.mismatch "struct OutcomeEvent")

def decode? (bs : Bytes) : Except Error OutcomeEvent :=
  (Source.parse bs).read (ofDocument? .text)

def ofValue? (v : Value) : Except Error OutcomeEvent :=
  ofDocument? .value (.ofValue v)

end OutcomeEvent

namespace FailureNotice

def toValue (n : FailureNotice) : Value :=
  .object [("message", .string n.message), ("createdAt", .string n.createdAt.text)]

def encode (n : FailureNotice) : Bytes :=
  Text.encode n.toValue.text

structure Partial where
  message : Option String := none
  createdAt : Option Timestamp := none

mutual

def skip? : Document → Except Error Unit
  | .garbled c | .broken c => .error (.broken c)
  | .string (.broken _ c) => .error (.broken c)
  | .array is closing => do
    skipItems? is
    closing.check
  | .object ms closing => do
    skipMembers? ms
    closing.check
  | _ => .ok ()

def skipItems? : List Document → Except Error Unit
  | [] => .ok ()
  | d :: ds => do
    skip? d
    skipItems? ds

def skipMembers? : List (Literal × Document) → Except Error Unit
  | [] => .ok ()
  | (k, d) :: ms => do
    skip? (.string k)
    skip? d
    skipMembers? ms

end

def Partial.take (p : Partial) (name : String) (d : Document) : Except Error Partial :=
  match name with
  | "message" => once name p.message d.text? fun v => { p with message := some v }
  | "createdAt" => once name p.createdAt d.timestamp? fun v => { p with createdAt := some v }
  | _ => (skip? d).map fun _ => p

/-- A notice is an object, or an array of its two fields. -/
def ofDocument? (origin : Origin) : Document → Except Error FailureNotice
  | .object ms closing => do
    let p ← ms.foldlM (fun p m => do Partial.take p (← Document.key m) m.2) ({} : Partial)
    closing.check
    return ⟨← need "message" p.message, ← need "createdAt" p.createdAt⟩
  | .array is closing => do
    let item (i : Nat) : Except Error Document :=
      match is[i]? with
      | some d => .ok d
      | none => do
        closing.check
        throw .otherData
    let message ← (← item 0).text?
    let createdAt ← (← item 1).timestamp?
    if 2 < is.length then throw (if origin = .text then .broken .malformed else .otherData)
    closing.check
    return ⟨message, createdAt⟩
  | d => .error (d.mismatch "struct FailureNotice")

def decode? (bs : Bytes) : Except Error FailureNotice :=
  (Source.parse bs).read (ofDocument? .text)

def ofValue? (v : Value) : Except Error FailureNotice :=
  ofDocument? .value (.ofValue v)

end FailureNotice
end OutcomeRelay
