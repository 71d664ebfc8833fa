import OutcomeRelay.Proofs.DeclaredTopology
import OutcomeRelay.Proofs.RoutedCopies

/-!
Declaring a topology on a broker in use. A sound topology is refused only for what the broker has
already and has otherwise; what was declared before stays, and no message is touched. Nothing that
happens later takes a topology away, so that it can be declared again at any time.
-/

namespace OutcomeRelay

namespace Broker

variable {b b' : Broker} {t : Topology}

structure Declares (b : Broker) (t : Topology) : Prop where
  succeeds : (b.declare t).2.1 = .ok () ↔ t.validate = .ok () ∧ b.Agrees t
  joins : (b.declare t).2.1 = .ok () → b.Joins t.entities (b.declare t).1
  stops : t.validate = .ok () → (b.declare t).2.1 ≠ .ok () → ∃ done e rest,
    t.entities = done ++ e :: rest ∧ b.Joins done (b.declare t).1 ∧
      b.Refuses e ∧ ∀ r, e ≠ .binding r
  unsound : ∀ f, t.validate = .error f →
    (b.declare t).1 = b ∧ (b.declare t).2.1 = .error f.toBusError
  nodup : (b.declare t).1.bindings.Nodup
  messages : SameMessages b (b.declare t).1

theorem declare_of_unsound {f : TopologyFault} (h : t.validate = .error f) :
    (b.declare t).1 = b ∧ (b.declare t).2.1 = .error f.toBusError := by
  unfold Broker.declare Topology.declareWith
  rw [h]
  exact ⟨rfl, rfl⟩

theorem comes_declare (reachable : b.reachable = true) (h : t.validate = .ok ()) :
    Comes b t.entities ((b.declare t).1, (b.declare t).2.1) := by
  rw [declare_eq_declared h]
  exact comes_declared reachable t.entities

theorem joins_of_declared (reachable : b.reachable = true) (hok : (b.declare t).2.1 = .ok ()) :
    t.validate = .ok () ∧ b.Joins t.entities (b.declare t).1 := by
  cases hvalid : t.validate with
  | error f => cases hok.symm.trans (declare_of_unsound hvalid).2
  | ok u =>
    have hcomes := comes_declare reachable hvalid
    generalize (b.declare t).1 = b', (b.declare t).2.1 = result at hcomes hok ⊢
    cases hcomes with
    | through joins => exact ⟨rfl, joins⟩
    | upTo => cases hok

theorem stops_of_refused (reachable : b.reachable = true) (hvalid : t.validate = .ok ())
    (hfail : (b.declare t).2.1 ≠ .ok ()) : ∃ done e rest, t.entities = done ++ e :: rest ∧
      b.Joins done (b.declare t).1 ∧ b.Refuses e ∧ ∀ r, e ≠ .binding r := by
  have hcomes := comes_declare reachable hvalid
  generalize (b.declare t).1 = b', (b.declare t).2.1 = result at hcomes hfail ⊢
  cases hcomes with
  | through => exact absurd rfl hfail
  | upTo split joins refuses =>
    exact ⟨_, _, _, split, joins,
      refuses_of_joins (Topology.sound_of_validate hvalid) split joins refuses⟩

theorem declares_of_reachable (reachable : b.reachable = true) (hnodup : b.bindings.Nodup)
    (t : Topology) : b.Declares t where
  succeeds := by
    constructor
    · intro hok
      obtain ⟨hvalid, hjoins⟩ := joins_of_declared reachable hok
      exact ⟨hvalid, hjoins.agrees⟩
    · rintro ⟨hvalid, hagrees⟩
      exact (declare_of_agrees reachable hvalid hagrees).1
  joins hok := (joins_of_declared reachable hok).2
  stops := stops_of_refused reachable
  unsound _ := declare_of_unsound
  nodup := (Bus.quiet_declare b t).graph.nodup hnodup
  messages := (Bus.quiet_declare b t).messages

theorem declare_again (reachable : b.reachable = true) (hvalid : t.validate = .ok ())
    (has : ∀ e ∈ t.entities, b.Includes e) : (b.declare t).1 = b ∧ (b.declare t).2.1 = .ok () := by
  have ht := Topology.sound_of_validate hvalid
  have hdone := declared_of_includes reachable has fun r hr => by
    obtain ⟨hexchange, hqueue⟩ := ht.bindings r (Topology.binding_mem_entities.mp hr)
    obtain ⟨x, hx⟩ := Option.isSome_iff_exists.mp hexchange
    obtain ⟨q, hq⟩ := Option.isSome_iff_exists.mp hqueue
    obtain ⟨hx, hxmem⟩ := ht.exchange?_eq_some_iff.mp hx
    obtain ⟨hq, hqmem⟩ := ht.queue?_eq_some_iff.mp hq
    have hexchange := has _ (Topology.exchange_mem_entities.mpr hxmem)
    have hqueue := has _ (Topology.queue_mem_entities.mpr hqmem)
    rw [exchange?_eq_some_iff.mpr ⟨hx, hexchange⟩, spec?_eq_some_iff.mpr ⟨hq, hqueue⟩]
    exact ⟨rfl, rfl⟩
  exact Prod.mk.inj ((declare_eq_declared hvalid).trans hdone)

end Broker

namespace Bus.History

open Broker

theorem extends_append (ops more : List Op) :
    Extends (run ops).broker (run (ops ++ more)).broker := by
  induction more using List.reverseRecOn with
  | nil =>
    rw [List.append_nil]
    exact .refl _
  | append_singleton more op ih =>
    rw [← List.append_assoc, run_concat]
    exact ih.trans (perform_effect (run (ops ++ more)).bus op).graph

/-- On whatever clients made of a broker, a topology is declared as `Declares` says. Once it was
declared, it can be declared again at any later time, and this changes nothing. -/
theorem declares_of_run (ops : List Op) (t : Topology)
    (reachable : (run ops).broker.reachable = true) :
    (run ops).broker.Declares t ∧ (((run ops).broker.declare t).2.1 = .ok () → ∀ more,
      (run (ops ++ .declare t :: more)).broker.reachable = true →
        ((run (ops ++ .declare t :: more)).broker.declare t).2.1 = .ok () ∧
        ((run (ops ++ .declare t :: more)).broker.declare t).1 =
          (run (ops ++ .declare t :: more)).broker) := by
  refine ⟨declares_of_reachable reachable (Bound.run ops).nodup t, fun hok more hlater => ?_⟩
  obtain ⟨hvalid, hjoins⟩ := joins_of_declared reachable hok
  have hdone : (run (ops ++ [.declare t])).broker = ((run ops).broker.declare t).1 := by
    rw [run_concat]
    rfl
  have hextends := extends_append (ops ++ [.declare t]) more
  rw [hdone, List.append_assoc, List.singleton_append] at hextends
  have hincludes : ∀ e ∈ t.entities, (run (ops ++ .declare t :: more)).broker.Includes e :=
    fun e he => hextends.includes ((hjoins e).mpr (.inr he))
  exact (declare_again hlater hvalid hincludes).symm

def usedBroker : List Op :=
  [.declareEntity (.exchange ⟨"orders", .topic, true⟩),
    .declareEntity (.queue ⟨"work", true, none⟩),
    .declareEntity (.binding ⟨"work", "orders", "order.#"⟩),
    .send ⟨"orders", "order.created", [1], "m1", "text/plain", true⟩,
    .send ⟨"orders", "order.paid", [2], "m2", "text/plain", true⟩,
    .consume "work" 1,
    .poll 1]

/-- It shares an exchange and a queue with the broker in use, and has another queue of its own. -/
def sharedTopology : Topology where
  exchanges := [⟨"orders", .topic, true⟩]
  queues := [⟨"audit", false, some ⟨"orders", "order.dead"⟩⟩, ⟨"work", true, none⟩]
  bindings := [⟨"audit", "orders", "order.*"⟩, ⟨"work", "orders", "order.#"⟩]

theorem declares_usedBroker :
    (run usedBroker).broker.reachable = true ∧
    (run usedBroker).broker.Declares sharedTopology ∧
    ((run usedBroker).broker.declare sharedTopology).2.1 = .ok () ∧
    ((run (usedBroker ++ [.declare sharedTopology, .ack "work" 1])).broker.declare
        sharedTopology).1 =
      (run (usedBroker ++ [.declare sharedTopology, .ack "work" 1])).broker := by
  have hreachable : (run usedBroker).broker.reachable = true := by decide
  obtain ⟨hdeclares, hagain⟩ := declares_of_run usedBroker sharedTopology hreachable
  have hok : ((run usedBroker).broker.declare sharedTopology).2.1 = .ok () := by decide
  exact ⟨hreachable, hdeclares, hok, (hagain hok [.ack "work" 1] (by decide)).2⟩

end Bus.History
end OutcomeRelay
