import OutcomeRelay.Proofs.RoutedCopies

/-!
The answer of a broker to a send. It follows from what is declared: whether there is the exchange,
and whether one of its bindings takes the routing key. A message is in the queues of the bindings
that lead it when the answer is an acknowledgement, and in no queue when it is any other.
-/

namespace OutcomeRelay

namespace Broker

structure Verdict (b : Broker) (o : Outbound) : Prop where
  refused : b.reachable = false → (b.send o).2 = .error unreachable
  nack : b.reachable = true →
    ((b.send o).2 = .ok (.nack (some (noExchange o.exchange))) ↔ b.exchange? o.exchange = none)
  returned : b.reachable = true →
    ((b.send o).2 = .ok (.returned
        ⟨312, "NO_ROUTE", o.exchange, o.routingKey, some o.messageId, o.body⟩) ↔
      (b.exchange? o.exchange).isSome ∧ o.mandatory = true ∧
        ∀ r ∈ b.bindings, ¬ b.Leads o.exchange o.routingKey r)
  ack : b.reachable = true →
    ((b.send o).2 = .ok .ack ↔ (b.exchange? o.exchange).isSome ∧
      (o.mandatory = true → ∃ r ∈ b.bindings, b.Leads o.exchange o.routingKey r))
  kept : (b.send o).2 ≠ .ok .ack → (b.send o).1.queues = b.queues
  untouched : ∀ n, (∀ r ∈ b.bindings, b.Leads o.exchange o.routingKey r → r.queue ≠ n) →
    (b.send o).1.queue? n = b.queue? n
  gained : (b.send o).2 = .ok .ack →
    ∀ n, (∃ r ∈ b.bindings, b.Leads o.exchange o.routingKey r ∧ r.queue = n) →
      ∃ q q' new, b.queue? n = some q ∧ (b.send o).1.queue? n = some q' ∧
        q'.spec = q.spec ∧ q'.held = q.held ∧ q'.ready = q.ready ++ new ∧ new ≠ [] ∧
        new.length = ((b.leading o.exchange o.routingKey).filter fun r => r.queue = n).length ∧
        ∀ c ∈ new, c = ⟨c.copy, o.exchange, o.routingKey, o.body, some o.messageId, false, 0⟩

variable {b : Broker} {o : Outbound} {n : String}

theorem queue?_enqueueAll_of_not_mem {m : StoredMessage} {queues : List String}
    (h : n ∉ queues) : (b.enqueueAll m queues).queue? n = b.queue? n := by
  induction queues generalizing b with
  | nil => rfl
  | cons queue queues ih =>
    obtain ⟨hne, hrest⟩ := not_or.mp (List.mem_cons.not.mp h)
    have hone : (b.enqueue m queue).queue? n = b.queue? n := by
      rw [enqueue, queue?_modifyQueue]
      · exact if_neg hne
      · exact fun _ => rfl
    exact (ih hrest).trans hone

theorem leading_eq_nil : b.leading o.exchange o.routingKey = [] ↔
    ∀ r ∈ b.bindings, ¬ b.Leads o.exchange o.routingKey r := by
  simp [leading, List.filter_eq_nil_iff]

def counted (b : Broker) : Broker :=
  { b with sendAttempts := b.sendAttempts + 1 }

theorem send_of_unreachable (h : b.reachable = false) :
    b.send o = (b.counted, .error unreachable) := by
  have hcounted : ¬ b.counted.reachable = true := by simp [counted, h]
  exact if_neg hcounted

theorem send_of_routed (hr : b.reachable = true) : b.send o =
    match b.counted.route (fresh o) with
    | (b', none) => (b', .ok (.nack (some (noExchange o.exchange))))
    | (b', some []) => (b', .ok (if o.mandatory then .returned (returned o) else .ack))
    | (b', some _) => (b', .ok .ack) := by
  have hcounted : b.counted.reachable = true := hr
  exact if_pos hcounted

theorem send_of_undeclared (hr : b.reachable = true) (h : b.exchange? o.exchange = none) :
    b.send o = (b.counted, .ok (.nack (some (noExchange o.exchange)))) := by
  have hroute : b.counted.route (fresh o) = (b.counted, none) := Bound.route_of_undeclared h
  rw [send_of_routed hr, hroute]

section Declared

variable (hb : Bound b) (hr : b.reachable = true) (h : (b.exchange? o.exchange).isSome)

include hb h

theorem route_of_sent : b.counted.route (fresh o) =
    (b.counted.enqueueAll (fresh o) ((b.leading o.exchange o.routingKey).map Binding.queue),
      some ((b.leading o.exchange o.routingKey).map Binding.queue)) := by
  have hcounted : Bound b.counted := ⟨hb.exchanges, hb.queues, hb.nodup⟩
  exact hcounted.route_of_declared h

include hr

theorem send_of_unmatched (hnone : b.leading o.exchange o.routingKey = []) :
    b.send o = (b.counted, .ok (if o.mandatory then .returned (returned o) else .ack)) := by
  rw [send_of_routed hr, route_of_sent hb h, hnone]
  rfl

theorem send_of_matched (hsome : b.leading o.exchange o.routingKey ≠ []) :
    b.send o = (b.counted.enqueueAll (fresh o)
      ((b.leading o.exchange o.routingKey).map Binding.queue), .ok .ack) := by
  obtain ⟨r, rs, hrs⟩ := List.exists_cons_of_ne_nil hsome
  rw [send_of_routed hr, route_of_sent hb h, hrs]
  rfl

end Declared

inductive Sent (b : Broker) (o : Outbound) : Prop where
  | unreachable (reachable : b.reachable = false)
      (result : b.send o = (b.counted, .error Broker.unreachable))
  | undeclared (reachable : b.reachable = true) (exchange : b.exchange? o.exchange = none)
      (result : b.send o = (b.counted, .ok (.nack (some (noExchange o.exchange)))))
  | unmatched (reachable : b.reachable = true) (exchange : (b.exchange? o.exchange).isSome)
      (none : ∀ r ∈ b.bindings, ¬ b.Leads o.exchange o.routingKey r)
      (result : b.send o =
        (b.counted, .ok (if o.mandatory then .returned (returned o) else .ack)))
  | matched (reachable : b.reachable = true) (exchange : (b.exchange? o.exchange).isSome)
      (some : ∃ r ∈ b.bindings, b.Leads o.exchange o.routingKey r)
      (result : b.send o = (b.counted.enqueueAll (fresh o)
        ((b.leading o.exchange o.routingKey).map Binding.queue), .ok .ack))

theorem Bound.sent (hb : Bound b) (o : Outbound) : b.Sent o := by
  cases hr : b.reachable with
  | false => exact .unreachable hr (send_of_unreachable hr)
  | true =>
    cases he : b.exchange? o.exchange with
    | none => exact .undeclared hr he (send_of_undeclared hr he)
    | some e =>
      have hsome : (b.exchange? o.exchange).isSome := by rw [he]; rfl
      by_cases hnil : b.leading o.exchange o.routingKey = []
      · exact .unmatched hr hsome (leading_eq_nil.mp hnil) (send_of_unmatched hb hr hsome hnil)
      · obtain ⟨r, hr'⟩ := List.exists_mem_of_ne_nil _ hnil
        exact .matched hr hsome ⟨r, mem_leading.mp hr'⟩ (send_of_matched hb hr hsome hnil)

namespace Bound

theorem send_untouched (hb : Bound b) (o : Outbound)
    (h : ∀ r ∈ b.bindings, b.Leads o.exchange o.routingKey r → r.queue ≠ n) :
    (b.send o).1.queue? n = b.queue? n := by
  cases hb.sent o with
  | unreachable _ result | undeclared _ _ result | unmatched _ _ _ result => rw [result]; rfl
  | matched _ _ _ result =>
    rw [result]
    refine queue?_enqueueAll_of_not_mem fun hmem => ?_
    obtain ⟨r, hr, rfl⟩ := List.mem_map.mp hmem
    obtain ⟨hr, hleads⟩ := mem_leading.mp hr
    exact h r hr hleads rfl

theorem send_gained (hb : Bound b) (hack : (b.send o).2 = .ok .ack) {r : Binding}
    (hr : r ∈ b.bindings) (hleads : b.Leads o.exchange o.routingKey r) :
    ∃ q q' new, b.queue? r.queue = some q ∧ (b.send o).1.queue? r.queue = some q' ∧
      q'.spec = q.spec ∧ q'.held = q.held ∧ q'.ready = q.ready ++ new ∧ new ≠ [] ∧
      new.length = ((b.leading o.exchange o.routingKey).filter fun x => x.queue = r.queue).length ∧
      ∀ c ∈ new, c = ⟨c.copy, o.exchange, o.routingKey, o.body, some o.messageId, false, 0⟩ := by
  rcases b.send_cases o with ⟨e, he, -⟩ | ⟨c, new, -, put⟩
  · rw [he] at hack
    cases hack
  obtain ⟨q, hq⟩ := Option.isSome_iff_exists.mp (hb.queues r hr)
  have hsome : ((b.send o).1.queue? r.queue).isSome := by rw [put.isSome, hq]; rfl
  obtain ⟨q', hq'⟩ := Option.isSome_iff_exists.mp hsome
  have hspec := put.graph.specs r.queue
  have hready := put.ready r.queue
  have hheld := put.held r.queue
  have hcount := put.count r.queue
  rw [spec?, spec?, hq, hq', Option.map_some, Option.map_some, Option.some.injEq] at hspec
  rw [readyMessages_of_some hq, readyMessages_of_some hq'] at hready
  rw [heldMessages_of_some hq, heldMessages_of_some hq'] at hheld
  rw [hb.count_knownTargets] at hcount
  refine ⟨q, q', new r.queue, hq, hq', hspec, hheld, hready, fun hnil => ?_, hcount, put.alike _⟩
  -- the binding itself is one of those that are counted, so there is at least one copy
  have hmem : r ∈ (b.leading o.exchange o.routingKey).filter fun x => x.queue = r.queue :=
    List.mem_filter.mpr ⟨mem_leading.mpr ⟨hr, hleads⟩, by simp⟩
  have hpos := List.length_pos_of_mem hmem
  rw [← hcount, hnil, List.length_nil] at hpos
  exact Nat.lt_irrefl _ hpos

theorem send_kept (hb : Bound b) (h : (b.send o).2 ≠ .ok .ack) :
    (b.send o).1.queues = b.queues := by
  cases hb.sent o with
  | unreachable _ result | undeclared _ _ result | unmatched _ _ _ result => rw [result]; rfl
  | matched _ _ _ result => exact absurd (congrArg Prod.snd result) h

theorem nack_iff (hb : Bound b) (o : Outbound) (h : b.reachable = true) :
    (b.send o).2 = .ok (.nack (some (noExchange o.exchange))) ↔ b.exchange? o.exchange = none := by
  cases hb.sent o with
  | unreachable reachable => exact absurd (h.symm.trans reachable) nofun
  | undeclared _ exchange result => exact iff_of_true (congrArg Prod.snd result) exchange
  | unmatched _ exchange _ result =>
    refine iff_of_false ?_ (Option.isSome_iff_ne_none.mp exchange)
    rw [result]
    cases o.mandatory <;> nofun
  | matched _ exchange _ result =>
    refine iff_of_false ?_ (Option.isSome_iff_ne_none.mp exchange)
    rw [result]
    nofun

theorem returned_iff (hb : Bound b) (o : Outbound) (h : b.reachable = true) :
    (b.send o).2 = .ok (.returned (returned o)) ↔
      (b.exchange? o.exchange).isSome ∧ o.mandatory = true ∧
        ∀ r ∈ b.bindings, ¬ b.Leads o.exchange o.routingKey r := by
  cases hb.sent o with
  | unreachable reachable => exact absurd (h.symm.trans reachable) nofun
  | undeclared _ exchange result =>
    rw [result, exchange]
    exact iff_of_false nofun nofun
  | unmatched _ exchange none result =>
    rw [result]
    cases o.mandatory with
    | true => exact iff_of_true rfl ⟨exchange, rfl, none⟩
    | false => exact iff_of_false nofun nofun
  | matched _ _ some result =>
    obtain ⟨r, hr, hleads⟩ := some
    rw [result]
    exact iff_of_false nofun fun hall => hall.2.2 r hr hleads

theorem ack_iff (hb : Bound b) (o : Outbound) (h : b.reachable = true) :
    (b.send o).2 = .ok .ack ↔ (b.exchange? o.exchange).isSome ∧
      (o.mandatory = true → ∃ r ∈ b.bindings, b.Leads o.exchange o.routingKey r) := by
  cases hb.sent o with
  | unreachable reachable => exact absurd (h.symm.trans reachable) nofun
  | undeclared _ exchange result =>
    rw [result, exchange]
    exact iff_of_false nofun nofun
  | unmatched _ exchange none result =>
    rw [result]
    cases o.mandatory with
    | true =>
      refine iff_of_false nofun fun hall => ?_
      obtain ⟨r, hr, hleads⟩ := hall.2 rfl
      exact none r hr hleads
    | false => exact iff_of_true rfl ⟨exchange, nofun⟩
  | matched _ exchange some result =>
    exact iff_of_true (congrArg Prod.snd result) ⟨exchange, fun _ => some⟩

end Bound
end Broker

namespace Bus.History

open Broker

/-- In every state that clients can bring a broker into, its answers agree with what is declared. -/
theorem verdict_of_run (ops : List Op) (o : Outbound) : (run ops).broker.Verdict o := by
  have hb := Bound.run ops
  refine ⟨fun h => congrArg Prod.snd (send_of_unreachable h), hb.nack_iff o, hb.returned_iff o,
    hb.ack_iff o, hb.send_kept, fun n => hb.send_untouched o, fun hack n => ?_⟩
  rintro ⟨r, hr, hleads, rfl⟩
  exact hb.send_gained hack hr hleads

end Bus.History
end OutcomeRelay
