import Mathlib.Data.List.Nodup
import OutcomeRelay.Proofs.MaskedDigits
import OutcomeRelay.Proofs.PublishProtocol
import OutcomeRelay.Proofs.WireRoundTrip

/-!
Card and account numbers in what is published. A payload shows the numbers of its event as they are.
They are masked where details are made for a card or a bank account, and validation never looks
whether they are, so that an event whose numbers came in another way goes out with them.
-/

namespace OutcomeRelay

open Json

namespace MethodDetails

open Masking

structure Masked (d : MethodDetails) : Prop where
  number : ∀ s, d.cardNumber = some s → Masking.Masked s
  account : ∀ s, d.bankAccount = some s → Masking.Masked s

inductive Made : MethodDetails → Prop where
  | card (number expiry : String) : Made (card number expiry)
  | paypal (email : String) : Made (paypal email)
  | bank (account name : String) : Made (bank account name)

theorem Made.masked {d : MethodDetails} (h : d.Made) : d.Masked := by
  cases h with
  | card number expiry => exact ⟨fun s hs => Option.some.inj hs ▸ masked_mask number, nofun⟩
  | paypal email => exact ⟨nofun, nofun⟩
  | bank account name => exact ⟨nofun, fun s hs => Option.some.inj hs ▸ masked_mask account⟩

variable {d : MethodDetails} {m : PaymentMethod} {number : String}

theorem missing?_withCardNumber (h : d.missing? m = none) (given : Text.blank number = false) :
    ({ d with cardNumber := some number } : MethodDetails).missing? m = none := by
  revert h
  cases m <;> simp [missing?, required, given]

theorem missing?_withBankAccount (h : d.missing? m = none) (given : Text.blank number = false) :
    ({ d with bankAccount := some number } : MethodDetails).missing? m = none := by
  revert h
  cases m <;> simp [missing?, required, given]

end MethodDetails

theorem Json.Value.lookup_eq_some_iff {ms : List (String × Value)}
    (hnodup : (ms.map Prod.fst).Nodup) {key : String} {v : Value} :
    lookup key ms = some v ↔ (key, v) ∈ ms := by
  induction ms with
  | nil => simp [lookup]
  | cons m ms ih =>
    obtain ⟨k, w⟩ := m
    rw [List.map_cons, List.nodup_cons] at hnodup
    rw [lookup, List.mem_cons, Prod.mk.injEq]
    by_cases hk : k = key
    · subst hk
      have hrest : (k, v) ∉ ms := fun h => hnodup.1 (List.mem_map.mpr ⟨_, h, rfl⟩)
      simp [hrest, eq_comm]
    · rw [if_neg hk, ih hnodup.2]
      simp [Ne.symm hk]

def payloadText? (body : Bytes) (name : String) : Option String :=
  match PaymentMessage.decode body with
  | .ok fields => (Value.lookup name fields).bind Value.string?
  | .error _ => none

def ShowsMasked (body : Bytes) : Prop :=
  ∀ name ∈ ["cardNumber", "bankAccount"], ∀ s, payloadText? body name = some s → Masking.Masked s

namespace OutcomeEvent

variable {e : OutcomeEvent}

def ownNames : List String :=
  ["id", "orderId", "amount", "currency", "paymentMethod", "paymentStatus", "transactionId",
    "retryCount", "createdAt", "updatedAt"]

theorem mem_members_of_detail {name : String} {v : Value} (hname : name ∈ MethodDetails.names) :
    (name, v) ∈ e.members ↔ (name, v) ∈ e.details.members := by
  have hown : ∀ own ∈ ownNames, name ≠ own := by
    rintro own hmem rfl
    exact (by decide : ∀ own ∈ ownNames, own ∉ MethodDetails.names) name hmem hname
  simp only [ownNames, List.mem_cons, List.not_mem_nil, or_false, forall_eq_or_imp,
    forall_eq] at hown
  simp [members, hown]

theorem mem_members_iff {name : String} {shown : Option String}
    (hf : (name, shown) ∈ e.details.fields) {v : Value} :
    (name, v) ∈ e.members ↔ ∃ s, shown = some s ∧ v = .string s := by
  have hnodup : (e.details.fields.map Prod.fst).Nodup := (by decide : MethodDetails.names.Nodup)
  have hname : name ∈ MethodDetails.names := List.mem_map_of_mem (f := Prod.fst) hf
  rw [mem_members_of_detail hname, MethodDetails.members, List.mem_filterMap]
  constructor
  · rintro ⟨f, hfield, hmember⟩
    obtain ⟨s, hs, heq⟩ := Option.map_eq_some_iff.mp hmember
    obtain ⟨hsame, rfl⟩ := Prod.mk.inj heq
    -- a name stands for one detail only
    obtain rfl := List.inj_on_of_nodup_map hnodup hfield hf hsame
    exact ⟨s, hs, rfl⟩
  · rintro ⟨s, rfl, rfl⟩
    exact ⟨_, hf, rfl⟩

theorem payloadText?_encode {name : String} {shown : Option String}
    (hf : (name, shown) ∈ e.details.fields) : payloadText? e.encode name = shown := by
  have hperm := Value.sorted_perm e.nodup_members
  have hnodup := (hperm.map Prod.fst).nodup_iff.mpr e.nodup_members
  have hdecode : PaymentMessage.decode e.encode = .ok (Value.sorted e.members) :=
    PaymentMessage.decode_object e.flat_members
  refine Option.ext fun s => ?_
  rw [payloadText?, hdecode, Option.bind_eq_some_iff]
  simp only [Value.lookup_eq_some_iff hnodup, hperm.mem_iff, mem_members_iff hf]
  constructor
  · rintro ⟨_, ⟨s', rfl, rfl⟩, hs⟩
    exact hs
  · rintro rfl
    exact ⟨_, ⟨s, rfl, rfl⟩, rfl⟩

theorem payloadText?_cardNumber (e : OutcomeEvent) :
    payloadText? e.encode "cardNumber" = e.details.cardNumber :=
  payloadText?_encode (.head _)

theorem payloadText?_bankAccount (e : OutcomeEvent) :
    payloadText? e.encode "bankAccount" = e.details.bankAccount :=
  payloadText?_encode (by simp [MethodDetails.fields])

theorem showsMasked_encode_iff : ShowsMasked e.encode ↔ e.details.Masked := by
  rw [ShowsMasked, List.forall_mem_cons, List.forall_mem_singleton, payloadText?_cardNumber,
    payloadText?_bankAccount]
  exact ⟨fun h => ⟨h.1, h.2⟩, fun h => ⟨h.number, h.account⟩⟩

theorem validate_withDetails (h : e.validate = .ok ()) {d : MethodDetails}
    (given : d.missing? e.paymentMethod = none) :
    OutcomeEvent.validate { e with details := d } = .ok () := by
  obtain ⟨horder, hamount, hcurrency, -, htransaction⟩ := Outcome.validate_eq_ok_iff.mp h
  exact Outcome.validate_eq_ok_iff.mpr ⟨horder, hamount, hcurrency, given, htransaction⟩

theorem missing?_of_validate (h : e.validate = .ok ()) :
    e.details.missing? e.paymentMethod = none :=
  (Outcome.validate_eq_ok_iff.mp h).2.2.2.1

end OutcomeEvent

namespace Publisher

variable {c : PublisherConfig} {target : RoutingTarget} {p : Publication} {net : Network}

theorem eq_of_sent_mem_rounds {o o' : Outbound} {a : Except BusError Unit}
    {as : List (Except BusError Unit)} (h : .sent o' a ∈ rounds c o as) : o' = o := by
  obtain ⟨a', -, ha⟩ := List.mem_flatMap.mp h
  rw [List.mem_cons, List.mem_singleton] at ha
  rcases ha with ha | ha
  · exact (Event.sent.inj ha).1
  · cases ha

theorem Stage.message_of_sent {m : Except PublishError Outbound} {t : Call} (h : Stage c m t)
    {o : Outbound} {a : Except BusError Unit} (hs : .sent o a ∈ t.events) : m = .ok o := by
  cases h with
  | refused => cases hs
  | attempting => rw [eq_of_sent_mem_rounds hs]
  | waiting | exhausted | watching =>
    rcases List.mem_append.mp hs with hs | hs
    · rw [eq_of_sent_mem_rounds hs]
    · rw [(Event.sent.inj (List.mem_singleton.mp hs)).1]
  | telling =>
    rcases List.mem_append.mp hs with hs | hs
    · rcases List.mem_append.mp hs with hs | hs
      · rw [eq_of_sent_mem_rounds hs]
      · simp only [List.mem_cons, List.not_mem_nil, or_false, reduceCtorEq] at hs
        rw [(Event.sent.inj hs).1]
    · obtain ⟨s, -, hs⟩ := List.mem_map.mp hs
      cases hs

theorem sent_of_message (net : Network) {o : Outbound} (h : p.message c target = .ok o) :
    .sent o (net.transport 0) ∈ (net.machine.run (Call.begin c target p) 1).events := by
  have hstep : net.machine.step (Call.begin c target p) = some
      { Call.begin c target p with
        sending := .sent c o 1 (.after c 0) (net.transport 0)
        events := [.sent o (net.transport 0)] } := by
    simp [Network.machine, Network.answer, Call.begin, Call.step, h, start_eq, Call.answers]
  rw [Machine.run, Machine.run, hstep]
  exact .head _

theorem body_of_sent {e : OutcomeEvent} {n : Nat} {o : Outbound} {a : Except BusError Unit}
    (h : .sent o a ∈ (net.machine.run (Call.begin c target (.event e)) n).events) :
    o.body = e.encode := by
  have hmessage := (run_stage c target (.event e) net n).message_of_sent h
  rw [Publication.message_eq] at hmessage
  split at hmessage
  · cases hmessage
  split at hmessage
  · cases hmessage
  · rw [← Except.ok.inj hmessage]
    rfl

theorem sent_of_valid (c : PublisherConfig) (target : RoutingTarget) (net : Network)
    {e : OutcomeEvent} (valid : e.validate = .ok ())
    (addressed : ¬(target.exchange = "" ∨ target.routingKey = "")) : ∃ o, .sent o (net.transport 0) ∈
      (net.machine.run (Call.begin c target (.event e)) 1).events := by
  have hmessage := Publication.message_eq (.event e) c target
  simp only [Publication.validate, valid, if_neg addressed] at hmessage
  exact ⟨_, sent_of_message net hmessage⟩

/-- What a publish call shows of the numbers of its event. -/
structure ShowsNumbers (c : PublisherConfig) (target : RoutingTarget) (e : OutcomeEvent)
    (net : Network) : Prop where
  carries : ∀ n o a, .sent o a ∈ (net.machine.run (Call.begin c target (.event e)) n).events →
    payloadText? o.body "cardNumber" = e.details.cardNumber ∧
    payloadText? o.body "bankAccount" = e.details.bankAccount
  masked_iff : (∀ n o a, .sent o a ∈ (net.machine.run (Call.begin c target (.event e)) n).events →
    ShowsMasked o.body) ↔ (∃ err, ofEvent c target e = .error err) ∨ e.details.Masked
  made : e.details.Made → e.details.Masked
  unchecked : e.validate = .ok () → ∀ number, Text.blank number = false →
    OutcomeEvent.validate { e with
      details := { e.details with cardNumber := some number } } = .ok () ∧
    OutcomeEvent.validate { e with
      details := { e.details with bankAccount := some number } } = .ok ()

/-- Publishing hands the numbers of an event over as they are. They are masked where the details
were made for their method, and an event with others is as valid. -/
theorem showsNumbers_of_publish (c : PublisherConfig) (target : RoutingTarget) (e : OutcomeEvent)
    (net : Network) : ShowsNumbers c target e net where
  carries n o a h := by
    rw [body_of_sent h]
    exact ⟨e.payloadText?_cardNumber, e.payloadText?_bankAccount⟩
  masked_iff := by
    constructor
    · intro h
      cases hm : ofEvent c target e with
      | error err => exact .inl ⟨err, rfl⟩
      | ok o =>
        have hsent := sent_of_message net (p := .event e) hm
        have hmasked := h 1 o _ hsent
        rw [body_of_sent hsent] at hmasked
        exact .inr (OutcomeEvent.showsMasked_encode_iff.mp hmasked)
    · rintro (⟨err, herr⟩ | hmasked) n o a h
      · have hmessage := (run_stage c target (.event e) net n).message_of_sent h
        cases herr.symm.trans hmessage
      · rw [body_of_sent h]
        exact OutcomeEvent.showsMasked_encode_iff.mpr hmasked
  made := MethodDetails.Made.masked
  unchecked valid number given := by
    have hnone := OutcomeEvent.missing?_of_validate valid
    exact ⟨OutcomeEvent.validate_withDetails valid
        (MethodDetails.missing?_withCardNumber hnone given),
      OutcomeEvent.validate_withDetails valid
        (MethodDetails.missing?_withBankAccount hnone given)⟩

def plainCard : OutcomeEvent where
  id := 7
  orderId := "ORD-7"
  amount := ⟨false, 25, 0, by decide, by decide⟩
  currency := "USD"
  paymentMethod := .creditCard
  paymentStatus := .success
  details := { cardNumber := some "4111111111111111", cardExpiry := some "12/30" }
  transactionId := "TXN-7"
  retryCount := 0
  createdAt := ⟨⟨2025, 1, 1⟩, 0, 0, 0, 0⟩
  updatedAt := ⟨⟨2025, 1, 1⟩, 0, 0, 0, 0⟩

/-- A valid event with a number in plain is published with it. -/
theorem not_showsMasked_of_plain :
    ¬ ∀ (c : PublisherConfig) (target : RoutingTarget) (e : OutcomeEvent) (net : Network) n o a,
      .sent o a ∈ (net.machine.run (Call.begin c target (.event e)) n).events →
        ShowsMasked o.body := by
  intro h
  have hvalid : plainCard.validate = .ok () := by decide +kernel
  obtain ⟨o, hsent⟩ := sent_of_valid {} ⟨"orders", "order.paid"⟩
    ⟨fun _ => .ok (), .confirmed .ack⟩ hvalid (by decide)
  have hshown := h _ _ _ _ _ _ _ hsent
  rw [body_of_sent hsent] at hshown
  have hmasked := OutcomeEvent.showsMasked_encode_iff.mp hshown
  exact absurd (hmasked.number "4111111111111111" rfl) (by decide +kernel)

end Publisher
end OutcomeRelay
