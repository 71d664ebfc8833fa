import OutcomeRelay.Event.Wire
import OutcomeRelay.Proofs.DecimalText
import OutcomeRelay.Proofs.JsonText
import OutcomeRelay.Proofs.TimestampText

/-!
Events and notices on the wire and back. What is read is what was written, but for the sign of a
zero amount and for leap seconds within a minute, which no text shows.
-/

namespace OutcomeRelay

open Json

theorem Json.Document.foldlM_ofMembers {α : Type} (take : α → String → Document → Except Error α)
    (ms : List (String × Value)) (a : α) :
    (ofMembers ms).foldlM (fun a m => do take a (← key m) m.2) a =
      ms.foldlM (fun a m => take a m.1 (ofValue m.2)) a := by
  induction ms generalizing a with
  | nil => rfl
  | cons m ms ih =>
    rw [ofMembers, List.foldlM_cons, List.foldlM_cons]
    simp only [ih]
    rfl

/-- A reader meets members of different names one by one. What it holds between two of them is
`seen` of those it has met. -/
theorem Json.Document.foldlM_seen {α : Type} {take : α → String → Document → Except Error α}
    {ms : List (String × Value)} (seen : List (String × Value) → α)
    (step : ∀ met, ∀ m ∈ ms, m.1 ∉ met.map Prod.fst →
      take (seen met) m.1 (ofValue m.2) = .ok (seen (met ++ [m])))
    (met : List (String × Value)) (hnodup : ((met ++ ms).map Prod.fst).Nodup) :
    ms.foldlM (fun a m => take a m.1 (ofValue m.2)) (seen met) = .ok (seen (met ++ ms)) := by
  induction ms generalizing met with
  | nil =>
    rw [List.append_nil]
    rfl
  | cons m ms ih =>
    have hnew : m.1 ∉ met.map Prod.fst := by
      intro hold
      rw [List.map_append, List.nodup_append] at hnodup
      exact hnodup.2.2 m.1 hold m.1 List.mem_cons_self rfl
    have hone : met ++ m :: ms = (met ++ [m]) ++ ms := by
      rw [List.append_assoc, List.singleton_append]
    rw [List.foldlM_cons, step met m List.mem_cons_self hnew, hone]
    rw [hone] at hnodup
    exact ih (fun met m' hm' => step met m' (List.mem_cons_of_mem m hm')) (met ++ [m]) hnodup

theorem Json.Document.timestamp?_text {t : Timestamp} (h : t.InRange) :
    timestamp? (.ofValue (.string t.text)) = .ok t.shown := by
  rw [ofValue, timestamp?, Timestamp.ofText?_text h]
  rfl

theorem Json.Document.decimal?_text (d : Decimal) :
    decimal? (.ofValue (.string d.text)) = .ok d.unsignedZero := by
  rw [ofValue, decimal?]
  simp only [Decimal.ofText?_text]
  rfl

theorem Json.Document.variant?_method (origin : Origin) (m : PaymentMethod) :
    variant? origin PaymentMethod.variants (.ofValue (.string m.name)) = .ok m := by
  cases m <;> cases origin <;> rfl

theorem Json.Document.variant?_status (origin : Origin) (s : PaymentStatus) :
    variant? origin PaymentStatus.variants (.ofValue (.string s.name)) = .ok s := by
  cases s <;> cases origin <;> rfl

theorem Json.Document.natural?_nat {limit n : Nat} (h : n < limit) (kind : String) :
    natural? limit kind (.ofValue (.nat n)) = .ok n := by
  rw [Value.nat, ofValue, natural?, if_pos h]

theorem Json.Document.text?_string (s : String) : text? (.ofValue (.string s)) = .ok s := by
  rw [ofValue, text?]

namespace MethodDetails

def names : List String :=
  ["cardNumber", "cardExpiry", "paypalEmail", "bankAccount", "bankName"]

theorem mem_members {d : MethodDetails} {m : String × Value} (h : m ∈ d.members) :
    m.1 ∈ names ∧ ∃ s, m.2 = .string s := by
  obtain ⟨f, hf, hm⟩ := List.mem_filterMap.mp h
  obtain ⟨s, -, rfl⟩ := Option.map_eq_some_iff.mp hm
  exact ⟨List.mem_map_of_mem (f := Prod.fst) hf, s, rfl⟩

theorem members_sublist (d : MethodDetails) : (d.members.map Prod.fst).Sublist names := by
  have hpresent : d.members.map Prod.fst = (d.fields.filter (·.2.isSome)).map Prod.fst := by
    unfold members
    induction d.fields with
    | nil => rfl
    | cons f fs ih =>
      obtain ⟨name, v⟩ := f
      cases v <;> simp [ih]
  rw [hpresent]
  exact List.filter_sublist.map Prod.fst

def seen (d : MethodDetails) (met : List String) : Partial where
  cardNumber := if "cardNumber" ∈ met then some d.cardNumber else none
  cardExpiry := if "cardExpiry" ∈ met then some d.cardExpiry else none
  paypalEmail := if "paypalEmail" ∈ met then some d.paypalEmail else none
  bankAccount := if "bankAccount" ∈ met then some d.bankAccount else none
  bankName := if "bankName" ∈ met then some d.bankName else none

theorem take_seen {d : MethodDetails} {m : String × Value} (hm : m ∈ d.members)
    {met : List String} (hnew : m.1 ∉ met) :
    (d.seen met).take m.1 (.ofValue m.2) = .ok (d.seen (met ++ [m.1])) := by
  obtain ⟨f, hf, hmap⟩ := List.mem_filterMap.mp hm
  obtain ⟨s, hs, rfl⟩ := Option.map_eq_some_iff.mp hmap
  simp only [fields, List.mem_cons, List.not_mem_nil, or_false] at hf
  rcases hf with rfl | rfl | rfl | rfl | rfl <;> dsimp only at hs hnew <;>
    simp [Partial.take, once, seen, hnew, hs, textOrNull, Document.ofValue, Document.text?,
      Except.map]

theorem finish_seen (d : MethodDetails) : (d.seen (d.members.map Prod.fst)).finish = d := by
  obtain ⟨number, expiry, email, account, bank⟩ := d
  cases number <;> cases expiry <;> cases email <;> cases account <;> cases bank <;> rfl

theorem ofMembers?_of_perm {d : MethodDetails} {ms : List (String × Value)}
    (h : ms.Perm d.members) : ofMembers? ms = .ok d := by
  have hnodup : (ms.map Prod.fst).Nodup :=
    (h.map Prod.fst).nodup_iff.mpr (d.members_sublist.nodup (by decide))
  have hread : ms.foldlM (fun p m => Partial.take p m.1 (.ofValue m.2)) ({} : Partial) =
      .ok (d.seen (ms.map Prod.fst)) := by
    apply Document.foldlM_seen (fun met => d.seen (met.map Prod.fst)) _ [] hnodup
    intro met m hm hnew
    rw [List.map_append]
    exact take_seen (h.subset hm) hnew
  have hsame : d.seen (ms.map Prod.fst) = d.seen (d.members.map Prod.fst) := by
    simp only [seen, (h.map Prod.fst).mem_iff]
  rw [ofMembers?, hread, hsame, Except.map, finish_seen]

end MethodDetails

theorem Outcome.validate_eq_ok_iff {o : Outcome} :
    o.validate = .ok () ↔ Text.blank o.orderId = false ∧ o.amount.isPositive ∧
      Text.blank o.currency = false ∧ o.details.missing? o.paymentMethod = none ∧
      (o.paymentStatus = .success → Text.blank o.transactionId = false) := by
  unfold validate
  cases Text.blank o.orderId <;> cases o.amount.isPositive <;> cases Text.blank o.currency <;>
    cases o.details.missing? o.paymentMethod <;> simp

namespace OutcomeEvent

def onWire (e : OutcomeEvent) : OutcomeEvent :=
  { e with
    amount := e.amount.unsignedZero
    createdAt := e.createdAt.shown
    updatedAt := e.updatedAt.shown }

theorem validate_onWire {e : OutcomeEvent} (h : e.validate = .ok ()) :
    e.onWire.validate = .ok () := by
  have hpositive : e.amount.isPositive := (Outcome.validate_eq_ok_iff.mp h).2.1
  have hamount : e.onWire.toOutcome = e.toOutcome := by
    rw [onWire, Decimal.unsignedZero_of_isPositive hpositive]
  rw [validate, hamount]
  exact h

theorem nodup_members (e : OutcomeEvent) : (e.members.map Prod.fst).Nodup := by
  have hsub : (e.members.map Prod.fst).Sublist
      (["id", "orderId", "amount", "currency", "paymentMethod", "paymentStatus"] ++
        MethodDetails.names ++ ["transactionId", "retryCount", "createdAt", "updatedAt"]) := by
    rw [members, List.map_append, List.map_append]
    exact ((List.Sublist.refl _).append e.details.members_sublist).append (.refl _)
  exact hsub.nodup (by decide)

def seen (e : OutcomeEvent) (met : List String) (others : List (String × Value)) : Partial where
  id := if "id" ∈ met then some e.id else none
  orderId := if "orderId" ∈ met then some e.orderId else none
  amount := if "amount" ∈ met then some e.amount else none
  currency := if "currency" ∈ met then some e.currency else none
  paymentMethod := if "paymentMethod" ∈ met then some e.paymentMethod else none
  paymentStatus := if "paymentStatus" ∈ met then some e.paymentStatus else none
  transactionId := if "transactionId" ∈ met then some e.transactionId else none
  retryCount := if "retryCount" ∈ met then some e.retryCount else none
  createdAt := if "createdAt" ∈ met then some e.createdAt else none
  updatedAt := if "updatedAt" ∈ met then some e.updatedAt else none
  others := others

theorem take_seen (origin : Origin) {e : OutcomeEvent} (created : e.createdAt.InRange)
    (updated : e.updatedAt.InRange) {m : String × Value} (hm : m ∈ e.members)
    {met : List String} (hnew : m.1 ∉ met) (others : List (String × Value)) :
    Partial.take origin (e.onWire.seen met others) m.1 (.ofValue m.2) =
      .ok (e.onWire.seen (met ++ [m.1])
        (others ++ [m].filter fun m => m.1 ∈ MethodDetails.names)) := by
  simp only [members, List.mem_append, List.mem_cons, List.not_mem_nil, or_false] at hm
  rcases hm with ((rfl | rfl | rfl | rfl | rfl | rfl) | hdetail) | rfl | rfl | rfl | rfl
  case inl.inr =>
    obtain ⟨hname, s, hs⟩ := MethodDetails.mem_members hdetail
    obtain ⟨name, v⟩ := m
    subst hs
    simp only [MethodDetails.names, List.mem_cons, List.not_mem_nil, or_false] at hname
    rcases hname with rfl | rfl | rfl | rfl | rfl <;>
      simp [Partial.take, seen, MethodDetails.names, Document.ofValue, Document.value?, Except.map]
  all_goals
    dsimp only at hnew
    simp [Partial.take, once, seen, onWire, hnew, Except.map, MethodDetails.names,
      Document.natural?_nat e.id.toNat_lt_size, Document.natural?_nat e.retryCount.toNat_lt_size,
      Document.text?_string, Document.decimal?_text, Document.variant?_method,
      Document.variant?_status, Document.timestamp?_text created, Document.timestamp?_text updated]

theorem filter_members (e : OutcomeEvent) :
    e.members.filter (fun m => m.1 ∈ MethodDetails.names) = e.details.members := by
  have hdetails : e.details.members.filter (fun m => m.1 ∈ MethodDetails.names) =
      e.details.members :=
    List.filter_eq_self.mpr fun m hm => decide_eq_true (MethodDetails.mem_members hm).1
  rw [members, List.filter_append, List.filter_append, hdetails]
  simp [MethodDetails.names]

theorem ofDocument?_of_perm (origin : Origin) {e : OutcomeEvent} (created : e.createdAt.InRange)
    (updated : e.updatedAt.InRange) {ms : List (String × Value)} (h : ms.Perm e.members) :
    ofDocument? origin (.ofValue (.object ms)) = .ok e.onWire := by
  have hnodup : (ms.map Prod.fst).Nodup := (h.map Prod.fst).nodup_iff.mpr e.nodup_members
  have hread : ms.foldlM (fun p m => Partial.take origin p m.1 (.ofValue m.2)) ({} : Partial) =
      .ok (e.onWire.seen (ms.map Prod.fst) (ms.filter fun m => m.1 ∈ MethodDetails.names)) := by
    apply Document.foldlM_seen (fun met => e.onWire.seen (met.map Prod.fst)
      (met.filter fun m => m.1 ∈ MethodDetails.names)) _ [] hnodup
    intro met m hm hnew
    rw [List.map_append, List.filter_append]
    exact take_seen origin created updated (h.subset hm) hnew _
  have hdetails : MethodDetails.ofMembers? (ms.filter fun m => m.1 ∈ MethodDetails.names) =
      .ok e.details :=
    MethodDetails.ofMembers?_of_perm (e.filter_members ▸ h.filter _)
  -- all fields have been met, so none is missing
  have hmet : ∀ name ∈ ["id", "orderId", "amount", "currency", "paymentMethod", "paymentStatus",
      "transactionId", "retryCount", "createdAt", "updatedAt"], name ∈ ms.map Prod.fst := by
    intro name hname
    rw [(h.map Prod.fst).mem_iff, members, List.map_append, List.map_append]
    simp only [List.mem_cons, List.not_mem_nil, or_false] at hname
    simp only [List.mem_append, List.map_cons, List.map_nil, List.mem_cons, List.not_mem_nil]
    tauto
  simp only [List.mem_cons, List.not_mem_nil, or_false, forall_eq_or_imp, forall_eq] at hmet
  rw [Document.ofValue, ofDocument?, Document.foldlM_ofMembers, hread]
  simp only [Closing.check, bind, Except.bind, Partial.finish, seen, hmet, if_true, need, hdetails]
  rfl

theorem flat_members (e : OutcomeEvent) : ∀ m ∈ e.members, Document.Flat m.2 := by
  intro m hm
  simp only [members, List.mem_append, List.mem_cons, List.not_mem_nil, or_false] at hm
  rcases hm with ((rfl | rfl | rfl | rfl | rfl | rfl) | hdetail) | rfl | rfl | rfl | rfl
  case inl.inr =>
    obtain ⟨-, s, hs⟩ := MethodDetails.mem_members hdetail
    exact hs ▸ .text s
  case inl.inl.inl => exact .natural e.id.toNat_lt_size
  case inr.inr.inl =>
    exact .natural (Nat.lt_trans e.retryCount.toNat_lt_size (by decide))
  all_goals exact .text _

theorem decode?_encode {e : OutcomeEvent} (created : e.createdAt.InRange)
    (updated : e.updatedAt.InRange) : decode? e.encode = .ok e.onWire := by
  have hread := ofDocument?_of_perm .text created updated (List.Perm.refl e.members)
  rw [decode?, encode, toValue, Document.parse_object e.flat_members, Source.read, hread]
  rfl

end OutcomeEvent

namespace FailureNotice

def onWire (n : FailureNotice) : FailureNotice :=
  { n with createdAt := n.createdAt.shown }

theorem decode?_encode {n : FailureNotice} (created : n.createdAt.InRange) :
    decode? n.encode = .ok n.onWire := by
  have hflat : ∀ m ∈ [("message", Value.string n.message),
      ("createdAt", .string n.createdAt.text)], Document.Flat m.2 := by
    simp only [List.mem_cons, List.not_mem_nil, or_false]
    rintro m (rfl | rfl) <;> exact .text _
  rw [decode?, encode, toValue, Document.parse_object hflat, Source.read, Document.ofValue,
    ofDocument?, Document.foldlM_ofMembers]
  simp [Partial.take, once, bind, Except.bind, pure, Except.pure, Except.map,
    Document.text?_string, Document.timestamp?_text created, Closing.check, need, onWire]

end FailureNotice
end OutcomeRelay
