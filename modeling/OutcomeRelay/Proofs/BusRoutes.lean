import OutcomeRelay.Proofs.BusConservation

/-!
What only a declaration changes. All other operations leave the exchanges, the queues and the
bindings as they are, so that the ways of messages stay what they were. What is true of every body
that is sent to a queue is then true of all that is ever in it, if it is true of what dies into it.
-/

namespace OutcomeRelay

namespace Broker

variable {b b' b'' : Broker}

theorem sameGraph_of_queues (h : b'.exchanges = b.exchanges) (h' : b'.bindings = b.bindings)
    (hqueues : b'.queues = b.queues) : SameGraph b b' :=
  ⟨h, h', fun n => spec?_congr (by rw [queue?, hqueues, queue?])⟩

theorem sameGraph_send (b : Broker) (o : Outbound) : SameGraph b (b.send o).1 := by
  rcases b.send_cases o with ⟨e, -, hb⟩ | ⟨c, new, -, put⟩
  · rw [hb]
    exact sameGraph_of_queues rfl rfl rfl
  · exact put.graph

theorem sameGraph_consume (b : Broker) (queue : String) (prefetch : Nat) :
    SameGraph b (b.consume queue prefetch).1 := by
  unfold consume whenReachable
  split
  · split
    · exact .refl b
    · exact sameGraph_of_queues rfl rfl rfl
  · exact .refl b

theorem sameGraph_poll (b : Broker) (c : Consumer) : SameGraph b (b.poll c).1 := by
  have htag : SameGraph b { b with lastTag := b.lastTag + 1 } := sameGraph_of_queues rfl rfl rfl
  unfold poll
  split
  · exact .refl b
  split
  · exact .refl b
  dsimp only
  split
  · exact htag
  split
  · exact htag
  split
  · exact htag
  · exact htag.trans (.modifyQueue _ _ fun _ => rfl)

theorem sameGraph_release (b : Broker) (queue : String) (tag : Nat) :
    SameGraph b (b.release queue tag).1 := by
  rcases b.release_cases queue tag with ⟨e, he, -⟩ | ⟨h, -, -, -, hchange⟩
  · rw [he]
    exact .refl b
  · exact hchange.graph

theorem sameGraph_ack (b : Broker) (queue : String) (tag : Nat) :
    SameGraph b (b.ack queue tag).1 := by
  have hrelease := b.sameGraph_release queue tag
  unfold ack
  split
  all_goals
    next heq =>
    rw [heq] at hrelease
    exact hrelease

theorem sameGraph_reject (b : Broker) (queue : String) (tag : Nat) (back : Bool) :
    SameGraph b (b.reject queue tag back).1 := by
  have hrelease := b.sameGraph_release queue tag
  unfold reject
  split
  · next heq =>
    rw [heq] at hrelease
    exact hrelease
  · next b' m heq =>
    rw [heq] at hrelease
    obtain ⟨new, hnew⟩ := posted_deadLetter b' queue m
    split
    · exact hrelease.trans (.modifyQueue _ _ fun _ => rfl)
    · exact hrelease.trans hnew.graph

theorem sameGraph_setReachable (b : Broker) (v : Bool) : SameGraph b (b.setReachable v) := by
  unfold setReachable
  dsimp only
  split
  · exact sameGraph_of_queues rfl rfl rfl
  · refine ⟨rfl, rfl, fun n => ?_⟩
    rw [spec?, queue?, List.find?_map, Option.map_map]
    rfl

end Broker

namespace Bus

open Broker

def Op.Declares : Op → Prop
  | .declare _ | .declareEntity _ => True
  | _ => False

theorem sameGraph_perform (s : Bus) {op : Op} (h : ¬ op.Declares) :
    SameGraph s.broker (s.perform op).1.broker := by
  cases op with
  | declare | declareEntity => exact absurd trivial h
  | send o => exact s.broker.sameGraph_send o
  | consume queue prefetch =>
    have hconsume := s.broker.sameGraph_consume queue prefetch
    unfold perform
    dsimp only
    split
    all_goals
      next heq =>
      rw [heq] at hconsume
      exact hconsume
  | poll id =>
    unfold perform
    dsimp only
    split
    · exact .refl _
    · exact s.broker.sameGraph_poll _
  | cancel id =>
    unfold perform
    dsimp only
    split <;> exact .refl _
  | close id =>
    unfold perform
    dsimp only
    split
    · exact .refl _
    · exact (s.broker.close_changed _).graph
  | ack queue tag => exact s.broker.sameGraph_ack queue tag
  | reject queue tag back => exact s.broker.sameGraph_reject queue tag back
  | setReachable v => exact s.broker.sameGraph_setReachable v

theorem Effect.routed {s : Bus} {op : Op} {reply : Reply} {b : Broker}
    (hnumbered : Numbered s.broker) (h : Effect s op reply b) {n : String} {x : StoredMessage}
    (hx : x ∈ (⟨s.broker, op, reply, b⟩ : Entry).arrivals n) :
    ∃ m, (⟨s.broker, op, reply, b⟩ : Entry).Source m ∧
      n ∈ s.broker.knownTargets m.exchange m.routingKey ∧ x = { m with copy := x.copy } := by
  rcases h.arrivals_cases hnumbered with ⟨hnone, -⟩ | ⟨m, b₀, new, hsource, put, -, hnew⟩
  · rw [hnone] at hx
    exact absurd hx List.not_mem_nil
  · rw [hnew] at hx
    have hcount : 0 < (s.broker.knownTargets m.exchange m.routingKey).count n :=
      put.count n ▸ List.length_pos_of_mem hx
    exact ⟨m, hsource, List.count_pos_iff.mp hcount, put.alike n x hx⟩

theorem Entry.Sound.routed {e : Entry} (h : e.Sound) {n : String} {x : StoredMessage}
    (hx : x ∈ e.arrivals n) :
    ∃ m, e.Source m ∧ n ∈ e.before.knownTargets m.exchange m.routingKey ∧
      x = { m with copy := x.copy } :=
  h.elim (P := fun e => x ∈ e.arrivals n → ∃ m, e.Source m ∧
      n ∈ e.before.knownTargets m.exchange m.routingKey ∧ x = { m with copy := x.copy })
    (fun _ _ _ _ _ hnumbered heffect => heffect.routed hnumbered) hx

theorem Entry.Sound.messages_body {P : String → Bytes → Prop} {e : Entry} (h : e.Sound)
    (stored : ∀ n, ∀ m ∈ e.before.messages n, P n m.body)
    (sent : ∀ o, e.op = .send o → ∀ n ∈ e.before.knownTargets o.exchange o.routingKey, P n o.body)
    (dies : ∀ queue t, e.before.deadLetterTarget? queue = some t →
      ∀ n ∈ e.before.knownTargets t.exchange t.routingKey, ∀ body, P queue body → P n body)
    (n : String) : ∀ m ∈ e.after.messages n, P n m.body := by
  intro m hm
  rcases h.kept hm with ⟨y, hy, heq⟩ | harrived
  · rw [heq]
    exact stored n y hy
  · obtain ⟨source, hsource, htarget, heq⟩ := h.routed harrived
    rw [heq]
    cases hsource with
    | sent op => exact sent _ op n htarget
    | @died queue g t op holds leads =>
      exact dies queue t leads n htarget _ (stored queue g.message (mem_messages_of_held holds))

namespace History

variable {h : History}

theorem Books.sent_cases (hb : Books h) (o : Outbound) :
    (∃ c, (h.next (.send o)).reply = .confirmed c ∧ ∀ n,
      ((h.next (.send o)).arrivals n).length =
        (h.broker.knownTargets o.exchange o.routingKey).count n ∧
      ∀ x ∈ (h.next (.send o)).arrivals n, x = { fresh o with copy := x.copy }) ∨
    ∃ e, (h.next (.send o)).reply = .failed e ∧ ∀ n, (h.next (.send o)).arrivals n = [] := by
  have hafter : (h.next (.send o)).after = (h.broker.send o).1 := rfl
  rcases h.broker.send_cases o with ⟨e, he, hsend⟩ | ⟨c, new, hc, put⟩
  · right
    refine ⟨e, ?_, fun n => Entry.arrivals_eq_nil ?_⟩
    · simp only [next, Bus.perform]
      rw [show h.bus.broker = h.broker from rfl, he]
    · rw [hafter, hsend]
      exact hb.numbered.ready n
  · left
    refine ⟨c, ?_, fun n => ?_⟩
    · simp only [next, Bus.perform]
      rw [show h.bus.broker = h.broker from rfl, hc]
    · have hnew : (h.next (.send o)).arrivals n = new n :=
        Entry.arrivals_eq (by rw [hafter]; exact put.ready n) (hb.numbered.ready n)
          fun x hx => (put.fresh n x hx).1
      rw [hnew]
      exact ⟨put.count n, put.alike n⟩

end History
end Bus
end OutcomeRelay
