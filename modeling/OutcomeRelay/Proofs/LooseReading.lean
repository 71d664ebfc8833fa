import OutcomeRelay.Delivery.Message
import OutcomeRelay.Proofs.EventWire
import OutcomeRelay.Proofs.RecordReading

/-!
The strict and the loose way to an event. The strict one reads fields from a text as it goes. The
loose one reads the text as a free-form object, sorts its members and reads the fields from these.
What the strict way reads, the loose way reads too, and as the same event.
-/

namespace OutcomeRelay

open Json

namespace Json.Document

/-- A string or a number, which is its own tree once it is read. -/
inductive Plain : Document → Prop where
  | number (n : Number) : Plain (.number (.ok n))
  | string (s : String) : Plain (.string (.text s))

theorem Kept.of_plain {β : Type} {read : Document → Except Error β} {d : Document}
    (h : ∀ b, read d = .ok b → d.Plain) : Kept read read d := by
  intro b hread
  cases h b hread with
  | number n => exact ⟨.number n, rfl, hread⟩
  | string s => exact ⟨.string s, rfl, hread⟩

theorem kept_text? (d : Document) : Kept text? text? d := by
  refine .of_plain fun s h => ?_
  unfold text? at h
  split at h
  · exact .string _
  · cases h

theorem kept_natural? (limit : Nat) (kind : String) (d : Document) :
    Kept (natural? limit kind) (natural? limit kind) d := by
  refine .of_plain fun n h => ?_
  unfold natural? at h
  split at h
  · exact .number _
  · cases h
  · cases h

theorem kept_decimal? (d : Document) : Kept decimal? decimal? d := by
  refine .of_plain fun x h => ?_
  unfold decimal? at h
  split at h
  · exact .number _
  · exact .number _
  · exact .number _
  · exact .string _
  · cases h

theorem kept_timestamp? (d : Document) : Kept timestamp? timestamp? d := by
  refine .of_plain fun t h => ?_
  unfold timestamp? at h
  split at h
  · exact .string _
  · cases h

theorem Kept.map {β γ : Type} {read read' : Document → Except Error β} {d : Document}
    (h : Kept read read' d) (f : β → γ) :
    Kept (fun d => (read d).map f) (fun d => (read' d).map f) d := by
  intro c hread
  obtain ⟨b, hb, rfl⟩ := map_eq_ok_iff.mp hread
  obtain ⟨v, hv, hread'⟩ := h b hb
  exact ⟨v, hv, map_eq_ok_iff.mpr ⟨b, hread', rfl⟩⟩

theorem kept_variant? {β : Type} (known : List (String × β)) (d : Document) :
    Kept (variant? .text known) (variant? .value known) d := by
  intro b hread
  match d with
  | .string (.text s) => exact ⟨.string s, rfl, hread⟩
  | .object (m :: ms) closing =>
    obtain ⟨k, d⟩ := m
    simp only [variant?, bind_eq_ok_iff] at hread
    obtain ⟨s, hs, b', hchosen, _, hunit, hends⟩ := hread
    -- what is read here has one key with a null value, and a bracket at its end
    have hnull : d = .null := by cases d <;> first | rfl | cases hunit
    have hlast : ms = [] ∧ closing = .closed ∧ b' = b := by
      cases ms <;> cases closing <;> cases hends
      exact ⟨rfl, rfl, rfl⟩
    obtain ⟨rfl, rfl, rfl⟩ := hlast
    subst hnull
    refine ⟨.object [(s, .null)], ?_, ?_⟩
    · simp only [value?, members?, hs, Closing.check, bind, Except.bind]
      rfl
    · simp only [ofValue, ofMembers, variant?, key, bind, Except.bind, hchosen]
      rfl
  | .object [] .closed | .object [] (.broken _) | .string .unreadable | .string (.broken ..) | .null
  | .bool _ | .number _ | .array .. | .garbled _ | .broken _ => cases hread

end Json.Document

namespace MethodDetails

inductive Field where
  | cardNumber | cardExpiry | paypalEmail | bankAccount | bankName
  deriving DecidableEq

namespace Field

def name : Field → String
  | cardNumber => "cardNumber"
  | cardExpiry => "cardExpiry"
  | paypalEmail => "paypalEmail"
  | bankAccount => "bankAccount"
  | bankName => "bankName"

def slot (p : Partial) : Field → Option (Option String)
  | cardNumber => p.cardNumber
  | cardExpiry => p.cardExpiry
  | paypalEmail => p.paypalEmail
  | bankAccount => p.bankAccount
  | bankName => p.bankName

def make (s : Field → Option (Option String)) : Partial where
  cardNumber := s cardNumber
  cardExpiry := s cardExpiry
  paypalEmail := s paypalEmail
  bankAccount := s bankAccount
  bankName := s bankName

end Field

def layout : Layout Partial Unit where
  Field := Field
  fields := [.cardNumber, .cardExpiry, .paypalEmail, .bankAccount, .bankName]
  mem_fields f := by cases f <;> decide
  name := Field.name
  name_injective f g h := by cases f <;> cases g <;> first | rfl | exact absurd h (by decide)
  Slot _ := Option String
  slot := Field.slot
  rest _ := ()
  make s _ := Field.make s
  slot_make s _ f := by cases f <;> rfl
  rest_make _ _ := rfl
  make_slot _ := rfl

theorem reads_take :
    layout.Reads Partial.take (fun _ => textOrNull) (fun _ _ _ => .ok ()) where
  own p f d := by cases f <;> rfl
  other p name d h := by
    unfold Partial.take
    split <;> first | exact absurd (by decide) h | rfl

theorem ofMembers?_of_named {ms ms' : List (String × Value)} {d : MethodDetails}
    (hnamed : ∀ f : Field, Value.named f.name ms' = Value.named f.name ms)
    (h : ofMembers? ms = .ok d) : ofMembers? ms' = .ok d := by
  obtain ⟨p, hread, hfinish⟩ := map_eq_ok_iff.mp h
  have hskip : ∀ ms : List (String × Value),
      ms.foldlM (fun _ _ => .ok ()) () = (.ok () : Except Error Unit) := by
    intro ms
    induction ms with
    | nil => rfl
    | cons m ms ih => exact ih
  exact map_eq_ok_iff.mpr ⟨p, reads_take.foldlM_of_named hread hnamed (hskip _), hfinish⟩

theorem length_named_le_one {ms : List (String × Value)} {d : MethodDetails}
    (h : ofMembers? ms = .ok d) (f : Field) : (Value.named f.name ms).length ≤ 1 := by
  obtain ⟨p, hread, -⟩ := map_eq_ok_iff.mp h
  exact reads_take.length_named_le_one hread f

end MethodDetails

namespace OutcomeEvent

inductive Field where
  | id | orderId | amount | currency | paymentMethod | paymentStatus | transactionId | retryCount
  | createdAt | updatedAt
  deriving DecidableEq

namespace Field

def name : Field → String
  | id => "id"
  | orderId => "orderId"
  | amount => "amount"
  | currency => "currency"
  | paymentMethod => "paymentMethod"
  | paymentStatus => "paymentStatus"
  | transactionId => "transactionId"
  | retryCount => "retryCount"
  | createdAt => "createdAt"
  | updatedAt => "updatedAt"

def Slot : Field → Type
  | id => UInt64
  | orderId | currency | transactionId => String
  | amount => Decimal
  | paymentMethod => PaymentMethod
  | paymentStatus => PaymentStatus
  | retryCount => UInt32
  | createdAt | updatedAt => Timestamp

def read (origin : Origin) : (f : Field) → Document → Except Error f.Slot
  | id => fun d => (d.natural? UInt64.size "u64").map UInt64.ofNat
  | orderId | currency | transactionId => Document.text?
  | amount => Document.decimal?
  | paymentMethod => Document.variant? origin PaymentMethod.variants
  | paymentStatus => Document.variant? origin PaymentStatus.variants
  | retryCount => fun d => (d.natural? UInt32.size "u32").map UInt32.ofNat
  | createdAt | updatedAt => Document.timestamp?

def slot (p : Partial) : (f : Field) → Option f.Slot
  | id => p.id
  | orderId => p.orderId
  | amount => p.amount
  | currency => p.currency
  | paymentMethod => p.paymentMethod
  | paymentStatus => p.paymentStatus
  | transactionId => p.transactionId
  | retryCount => p.retryCount
  | createdAt => p.createdAt
  | updatedAt => p.updatedAt

def make (s : (f : Field) → Option f.Slot) (others : List (String × Value)) : Partial where
  id := s id
  orderId := s orderId
  amount := s amount
  currency := s currency
  paymentMethod := s paymentMethod
  paymentStatus := s paymentStatus
  transactionId := s transactionId
  retryCount := s retryCount
  createdAt := s createdAt
  updatedAt := s updatedAt
  others := others

theorem kept_read (f : Field) (d : Document) : Document.Kept (read .text f) (read .value f) d := by
  cases f with
  | id => exact (Document.kept_natural? _ _ d).map UInt64.ofNat
  | retryCount => exact (Document.kept_natural? _ _ d).map UInt32.ofNat
  | orderId | currency | transactionId => exact Document.kept_text? d
  | amount => exact Document.kept_decimal? d
  | paymentMethod | paymentStatus => exact Document.kept_variant? _ d
  | createdAt | updatedAt => exact Document.kept_timestamp? d

end Field

def layout : Layout Partial (List (String × Value)) where
  Field := Field
  fields := [.id, .orderId, .amount, .currency, .paymentMethod, .paymentStatus, .transactionId,
    .retryCount, .createdAt, .updatedAt]
  mem_fields f := by cases f <;> decide
  name := Field.name
  name_injective f g h := by cases f <;> cases g <;> first | rfl | exact absurd h (by decide)
  Slot := Field.Slot
  slot := Field.slot
  rest p := p.others
  make := Field.make
  slot_make s _ f := by cases f <;> rfl
  rest_make _ _ := rfl
  make_slot _ := rfl

def keep (others : List (String × Value)) (name : String) (d : Document) :
    Except Error (List (String × Value)) :=
  (d.value? 126).map fun v => others ++ [(name, v)]

theorem reads_take (origin : Origin) :
    layout.Reads (Partial.take origin) (Field.read origin) keep where
  own p f d := by cases f <;> rfl
  other p name d h := by
    unfold Partial.take
    rw [keep]
    split <;> first | exact absurd (by decide) h | cases d.value? 126 <;> rfl

theorem kept_take (p : Partial) (name : String) (d : Document) :
    Document.Kept (Partial.take .text p name) (Partial.take .value p name) d := by
  have hvalue : Document.Kept (Document.value? 126) (Document.value? 126) d :=
    fun v hv => ⟨v, hv, Document.value?_ofValue hv⟩
  exact (reads_take .text).kept_take (reads_take .value) (fun f => f.kept_read d)
    (fun others name => hvalue.map fun v => others ++ [(name, v)]) p name

theorem foldlM_keep {ms : List (String × Value)}
    (h : ∀ m ∈ ms, Document.value? 126 (.ofValue m.2) = .ok m.2) (others : List (String × Value)) :
    ms.foldlM (fun r m => keep r m.1 (.ofValue m.2)) others = .ok (others ++ ms) := by
  induction ms generalizing others with
  | nil =>
    rw [List.append_nil]
    rfl
  | cons m ms ih =>
    have hfirst : keep others m.1 (.ofValue m.2) = .ok (others ++ [m]) := by
      rw [keep, h m List.mem_cons_self]
      rfl
    have hrest := ih (fun m' hm' => h m' (List.mem_cons_of_mem m hm')) (others ++ [m])
    rw [List.foldlM_cons, hfirst]
    rwa [List.append_assoc, List.singleton_append] at hrest

variable {vs : List (String × Value)} {p : Partial} {e : OutcomeEvent}

theorem foldlM_sorted (origin : Origin)
    (hvalues : ∀ m ∈ vs, Document.value? 126 (.ofValue m.2) = .ok m.2)
    (h : vs.foldlM (fun p m => Partial.take origin p m.1 (.ofValue m.2)) {} = .ok p) :
    p.others = layout.others vs ∧
    (Value.sorted vs).foldlM (fun p m => Partial.take origin p m.1 (.ofValue m.2)) {} =
      .ok { p with others := layout.others (Value.sorted vs) } := by
  have hkept : (layout.others vs).foldlM (fun r m => keep r m.1 (.ofValue m.2)) [] =
      .ok p.others := ((reads_take origin).foldlM_eq_ok_iff.mp h).2
  rw [foldlM_keep fun m hm => hvalues m (Layout.mem_of_mem_others hm)] at hkept
  refine ⟨(Except.ok.inj hkept).symm, (reads_take origin).foldlM_of_named h (fun f => ?_) ?_⟩
  · exact Value.named_sorted_of_single ((reads_take origin).length_named_le_one h f)
  · refine foldlM_keep (fun m hm => hvalues m ?_) []
    exact Value.mem_of_mem_sorted (Layout.mem_of_mem_others hm)

theorem finish_of_details {others : List (String × Value)} (h : p.finish = .ok e)
    (hdetails : ∀ d, MethodDetails.ofMembers? p.others = .ok d →
      MethodDetails.ofMembers? others = .ok d) :
    Partial.finish { p with others := others } = .ok e := by
  simp only [Partial.finish, bind_eq_ok_iff] at h ⊢
  obtain ⟨id, hid, orderId, horderId, amount, hamount, currency, hcurrency, method, hmethod, status,
    hstatus, created, hcreated, updated, hupdated, d, hd, he⟩ := h
  exact ⟨id, hid, orderId, horderId, amount, hamount, currency, hcurrency, method, hmethod, status,
    hstatus, created, hcreated, updated, hupdated, d, hdetails d hd, he⟩

theorem finish_sorted (hothers : p.others = layout.others vs) (h : p.finish = .ok e) :
    Partial.finish { p with others := layout.others (Value.sorted vs) } = .ok e := by
  refine finish_of_details h fun d hd => ?_
  rw [hothers] at hd
  refine MethodDetails.ofMembers?_of_named (fun f => ?_) hd
  -- no detail has the name of an own field, so the own fields can be left out of sight
  have hname : f.name ∉ layout.names := by cases f <;> decide
  have hsingle := MethodDetails.length_named_le_one hd f
  rw [Layout.named_others hname] at hsingle
  rw [Layout.named_others hname, Layout.named_others hname, Value.named_sorted_of_single hsingle]

theorem ofValue?_of_ofDocument? {d : Document} (h : ofDocument? .text d = .ok e) :
    ∃ fields, d.value? 127 = .ok (.object fields) ∧ ofValue? (.object fields) = .ok e := by
  match d with
  | .object ms closing =>
    simp only [ofDocument?, bind_eq_ok_iff] at h
    obtain ⟨p, hread, ⟨⟩, hclosed, hfinish⟩ := h
    obtain ⟨vs, hvs, hvalues⟩ := Document.foldlM_values kept_take hread
    obtain ⟨hothers, hsorted⟩ := foldlM_sorted .value (Document.value?_ofMembers hvs) hvalues
    refine ⟨Value.sorted vs, ?_, ?_⟩
    · simp only [Document.value?, hvs, hclosed, bind, Except.bind]
      rfl
    · rw [ofValue?, Document.ofValue, ofDocument?, Document.foldlM_ofMembers, hsorted]
      exact finish_sorted hothers hfinish
  | .null | .bool _ | .number _ | .string _ | .array .. | .garbled _ | .broken _ => cases h

end OutcomeEvent

theorem Json.Source.read_eq_ok_iff {α : Type} {s : Source} {f : Document → Except Json.Error α}
    {a : α} : s.read f = .ok a ↔ f s.document = .ok a ∧ s.trailing = false := by
  rw [Source.read]
  cases f s.document <;> cases s.trailing <;>
    simp [bind, Except.bind, pure, Except.pure, throw, throwThe, MonadExceptOf.throw]

/-- What is read as an event from a text is a message, and its strict view is the same event. -/
theorem PaymentMessage.toOutcome_of_decode? {bs : Bytes} {e : OutcomeEvent}
    (h : OutcomeEvent.decode? bs = .ok e) :
    ∃ fields, decode bs = .ok fields ∧
      ∀ m : PaymentMessage, m.fields = fields → m.toOutcome = .ok e := by
  obtain ⟨hevent, htrailing⟩ := Source.read_eq_ok_iff.mp h
  obtain ⟨fields, hvalue, hsame⟩ := OutcomeEvent.ofValue?_of_ofDocument? hevent
  have hwhole : (Source.parse bs).value? = .ok (.object fields) :=
    Source.read_eq_ok_iff.mpr ⟨hvalue, htrailing⟩
  refine ⟨fields, by rw [decode, hwhole], fun m hm => ?_⟩
  rw [toOutcome, hm, hsame]

/-- A text with members in no order, two of an unknown name, a nested one, an escaped letter, a
surrogate pair, a method written as an object, an amount written as a number and a leap second in
another time zone. -/
def hardText : Bytes :=
  ["\x7b\"zeta\":[1,\x7b\"deep\":[null,true]\x7d],\"note\":\"first\",",
    " \"id\" : 7,\"amount\":12.50,\"currency\":\"\\u0055SD\",",
    "\"updatedAt\":\"2024-02-29T23:59:60.123456789+02:00\",",
    "\"paymentMethod\":\x7b\"PAYPAL\":null\x7d,\"paymentStatus\":\"SUCCESS\",",
    "\"orderId\":\"ORD-\\ud83d\\ude00\",\"paypalEmail\":\"a@b.c\",",
    "\"cardNumber\":null,\"note\":\x7b\"second\":-0.5e3\x7d,",
    "\"createdAt\":\"2024-02-29T21:59:59.000000001Z\"\x7d"].flatMap Text.encode

def hardTextEvent : OutcomeEvent where
  id := 7
  orderId := "ORD-😀"
  amount := ⟨false, 125, 1, by decide, by decide⟩
  currency := "USD"
  paymentMethod := .paypal
  paymentStatus := .success
  details := { paypalEmail := some "a@b.c" }
  transactionId := ""
  retryCount := 0
  createdAt := ⟨⟨2024, 2, 29⟩, 21, 59, 59, 1⟩
  updatedAt := ⟨⟨2024, 2, 29⟩, 21, 59, 59, 1123456789⟩

theorem toOutcome_of_decode?_hardText :
    OutcomeEvent.decode? hardText = .ok hardTextEvent ∧
    ∃ fields, PaymentMessage.decode hardText = .ok fields ∧
      ∀ m : PaymentMessage, m.fields = fields → m.toOutcome = .ok hardTextEvent := by
  have hread : OutcomeEvent.decode? hardText = .ok hardTextEvent := by decide +kernel
  exact ⟨hread, PaymentMessage.toOutcome_of_decode? hread⟩

end OutcomeRelay
