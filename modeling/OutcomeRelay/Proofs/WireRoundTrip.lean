import OutcomeRelay.Delivery.Message
import OutcomeRelay.Proofs.EventWire
import OutcomeRelay.Proofs.FreeFormValues

/-!
The wire form loses the sign of a zero amount and the leap second of an instant within a minute, and
nothing else. An event comes back from its bytes field by field; it comes back also by way of the
free-form message that a handler sees, whose members are sorted by name. Sorting only moves members
about, and an event is read from its members in any order.
-/

namespace OutcomeRelay

open Json

namespace Json.Value

theorem insert_perm {key : String} {ms : List (String × Value)} (h : key ∉ ms.map Prod.fst)
    (v : Value) : (insert key v ms).Perm ((key, v) :: ms) := by
  induction ms with
  | nil => exact .refl _
  | cons m ms ih =>
    obtain ⟨k, w⟩ := m
    rw [List.map_cons, List.mem_cons, not_or] at h
    by_cases hbefore : key < k
    · rw [insert, if_pos hbefore]
    · rw [insert, if_neg hbefore, if_neg h.1]
      exact ((ih h.2).cons (k, w)).trans (.swap _ _ _)

theorem sorted_perm {ms : List (String × Value)} (hnodup : (ms.map Prod.fst).Nodup) :
    (sorted ms).Perm ms := by
  -- the induction needs the members that have been placed before
  suffices key : ∀ placed : List (String × Value), ((placed ++ ms).map Prod.fst).Nodup →
      (ms.foldl (fun acc m => insert m.1 m.2 acc) placed).Perm (placed ++ ms) from key [] hnodup
  clear hnodup
  induction ms with
  | nil =>
    intro placed _
    rw [List.append_nil]
    exact .refl _
  | cons m ms ih =>
    intro placed hnodup
    have hfront : (m :: placed ++ ms).Perm (placed ++ m :: ms) := List.perm_middle.symm
    have hnodup' : ((m :: placed ++ ms).map Prod.fst).Nodup :=
      (hfront.map Prod.fst).nodup_iff.mpr hnodup
    have hnew : m.1 ∉ placed.map Prod.fst := by
      intro hold
      rw [List.cons_append, List.map_cons, List.nodup_cons, List.map_append] at hnodup'
      exact hnodup'.1 (List.mem_append_left _ hold)
    have hplaced : (insert m.1 m.2 placed ++ ms).Perm (m :: placed ++ ms) :=
      (insert_perm hnew m.2).append_right ms
    exact (ih _ ((hplaced.map Prod.fst).nodup_iff.mpr hnodup')).trans (hplaced.trans hfront)

end Json.Value

namespace Json.Document

theorem value?_flat {v : Value} (h : Flat v) (depth : Nat) : value? depth (ofValue v) = .ok v := by
  cases h <;> rfl

theorem members?_flat {ms : List (String × Value)} (flat : ∀ m ∈ ms, Flat m.2) (depth : Nat) :
    members? depth (ofMembers ms) = .ok ms :=
  members?_ofMembers fun m hm => value?_flat (flat m hm) depth

end Json.Document

namespace PaymentMessage

theorem decode_object {ms : List (String × Value)} (flat : ∀ m ∈ ms, Document.Flat m.2) :
    decode (Text.encode (Value.object ms).text) = .ok (Value.sorted ms) := by
  have hvalue : Document.value? 127 (.ofValue (.object ms)) =
      .ok (.object (Value.sorted ms)) := by
    simp only [Document.ofValue, Document.value?, Document.members?_flat flat, Closing.check, bind,
      Except.bind]
    rfl
  simp only [decode, Document.parse_object flat, Source.value?, hvalue, bind, Except.bind]
  rfl

theorem toOutcome_of_decode_encode {e : OutcomeEvent} (created : e.createdAt.InRange)
    (updated : e.updatedAt.InRange) : ∃ fields, decode e.encode = .ok fields ∧
      ∀ m : PaymentMessage, m.fields = fields → m.toOutcome = .ok e.onWire := by
  refine ⟨Value.sorted e.members, decode_object e.flat_members, ?_⟩
  intro m hfields
  have hperm : m.fields.Perm e.members := hfields ▸ Value.sorted_perm e.nodup_members
  exact OutcomeEvent.ofDocument?_of_perm .value created updated hperm

end PaymentMessage

theorem Decimal.unsignedZero_eq_self {d : Decimal} (h : ¬(d.negative = true ∧ d.mantissa = 0)) :
    d.unsignedZero = d := by
  obtain ⟨negative, mantissa, scale, hm, hs⟩ := d
  cases negative
  · rfl
  · have hmantissa : mantissa ≠ 0 := fun hzero => h ⟨rfl, hzero⟩
    simp [unsignedZero, hmantissa]

/-- What is written is read back, as an event and by way of a message: every field and the scale of
the amount. A negative zero comes back without its sign, and an instant in a leap second within a
minute as the second after it. -/
theorem lossless_wire {e : OutcomeEvent} {n : FailureNotice} (created : e.createdAt.InRange)
    (updated : e.updatedAt.InRange) (noticed : n.createdAt.InRange) :
    let read : OutcomeEvent := { e with
      amount := e.amount.unsignedZero
      createdAt := e.createdAt.shown
      updatedAt := e.updatedAt.shown }
    OutcomeEvent.decode? e.encode = .ok read ∧
    (∃ fields, PaymentMessage.decode e.encode = .ok fields ∧
      ∀ m : PaymentMessage, m.fields = fields → m.toOutcome = .ok read) ∧
    FailureNotice.decode? n.encode = .ok { n with createdAt := n.createdAt.shown } ∧
    (¬(e.amount.negative = true ∧ e.amount.mantissa = 0) → e.amount.unsignedZero = e.amount) ∧
    (e.amount.mantissa = 0 → e.amount.unsignedZero = { e.amount with negative := false }) ∧
    ∀ t ∈ [e.createdAt, e.updatedAt, n.createdAt], (¬ t.LeapsWithin → t.shown = t) ∧
      (t.LeapsWithin →
        t.shown = { t with second := t.second + 1, nano := t.nano - 1000000000 }) := by
  refine ⟨OutcomeEvent.decode?_encode created updated,
    PaymentMessage.toOutcome_of_decode_encode created updated,
    FailureNotice.decode?_encode noticed, Decimal.unsignedZero_eq_self, ?_, ?_⟩
  · intro hzero
    simp [Decimal.unsignedZero, hzero]
  · intro t ht
    have hrange : t.InRange := by
      simp only [List.mem_cons, List.not_mem_nil, or_false] at ht
      rcases ht with rfl | rfl | rfl
      · exact created
      · exact updated
      · exact noticed
    exact ⟨Timestamp.shown_of_not_leapsWithin, hrange.shown_of_leapsWithin⟩

/-- An event with the largest id, text of all kinds, a negative zero of 28 places, some of the
details, a leap second and a year of six digits. -/
def hardEvent : OutcomeEvent where
  id := 18446744073709551615
  orderId := "quote \" slash \\ line \n bell \x07 λ 😀"
  amount := ⟨true, 0, 28, by decide, by decide⟩
  currency := ""
  paymentMethod := .bankTransfer
  paymentStatus := .failed
  details := { cardExpiry := some "", bankName := some "Bänk \t" }
  transactionId := " "
  retryCount := 4294967295
  createdAt := ⟨⟨2016, 12, 31⟩, 23, 59, 59, 1999999999⟩
  updatedAt := ⟨⟨-262143, 1, 1⟩, 0, 0, 0, 1000⟩

def hardNotice : FailureNotice :=
  ⟨"\r\n\x00", ⟨⟨262142, 12, 31⟩, 23, 56, 4, 1333333333⟩⟩

theorem lossless_wire_hardEvent :
    (hardEvent.createdAt.InRange ∧ hardEvent.updatedAt.InRange ∧ hardNotice.createdAt.InRange) ∧
    OutcomeEvent.decode? hardEvent.encode =
      .ok { hardEvent with amount := { hardEvent.amount with negative := false } } ∧
    FailureNotice.decode? hardNotice.encode =
      .ok { hardNotice with createdAt := ⟨⟨262142, 12, 31⟩, 23, 56, 5, 333333333⟩ } := by
  have hrange : hardEvent.createdAt.InRange ∧ hardEvent.updatedAt.InRange ∧
      hardNotice.createdAt.InRange := by decide
  have hshown : hardEvent.createdAt.shown = hardEvent.createdAt ∧
      hardEvent.updatedAt.shown = hardEvent.updatedAt ∧
      hardNotice.createdAt.shown = ⟨⟨262142, 12, 31⟩, 23, 56, 5, 333333333⟩ := by decide
  obtain ⟨hevent, -, hnotice, -, hzero, -⟩ := lossless_wire hrange.1 hrange.2.1 hrange.2.2
  rw [hzero rfl, hshown.1, hshown.2.1] at hevent
  rw [hshown.2.2] at hnotice
  exact ⟨hrange, hevent, hnotice⟩

/-- Not every event comes back as it was but for the sign of a zero: one that was made in a leap
second within a minute comes back as of the second after it. -/
theorem not_lossless_of_leapWithin : ¬ ∀ e : OutcomeEvent, e.createdAt.InRange →
    e.updatedAt.InRange →
      OutcomeEvent.decode? e.encode = .ok { e with amount := e.amount.unsignedZero } := by
  intro hlossless
  let leap : Timestamp := ⟨⟨2024, 1, 2⟩, 23, 56, 4, 1333333333⟩
  let e : OutcomeEvent := { hardEvent with createdAt := leap }
  have hrange : e.createdAt.InRange ∧ e.updatedAt.InRange := by decide
  have hread := OutcomeEvent.decode?_encode hrange.1 hrange.2
  rw [hlossless e hrange.1 hrange.2, Except.ok.injEq] at hread
  have hcreated : leap = leap.shown := congrArg OutcomeEvent.createdAt hread
  exact absurd hcreated (by decide)

end OutcomeRelay
