import Mathlib.Data.List.Dedup
import OutcomeRelay.Proofs.BusRoutes
import OutcomeRelay.Proofs.TopicPatterns

/-!
How many copies of a message a queue gets. Bindings are of exchanges and queues that are declared,
so a routed message makes one copy for each binding that leads it, and what routing tells is the
number of these copies. A queue that is bound to an exchange by several keys gets as many copies as
of these keys take the routing key.
-/

namespace OutcomeRelay

namespace Broker

def Leads (b : Broker) (exchange routingKey : String) (r : Binding) : Prop :=
  r.exchange = exchange ∧ ∃ e ∈ b.exchange? exchange, e.kind.Takes r.routingKey routingKey

instance (b : Broker) (exchange routingKey : String) (r : Binding) :
    Decidable (b.Leads exchange routingKey r) :=
  inferInstanceAs (Decidable (_ ∧ _))

def leading (b : Broker) (exchange routingKey : String) : List Binding :=
  b.bindings.filter fun r => b.Leads exchange routingKey r

structure Bound (b : Broker) : Prop where
  exchanges : ∀ r ∈ b.bindings, (b.exchange? r.exchange).isSome
  queues : ∀ r ∈ b.bindings, (b.queue? r.queue).isSome
  nodup : b.bindings.Nodup

variable {b b' : Broker} {x k n : String}

theorem mem_leading {r : Binding} : r ∈ b.leading x k ↔ r ∈ b.bindings ∧ b.Leads x k r := by
  simp [leading]

theorem targets_eq (b : Broker) (x k : String) :
    b.targets x k = (b.exchange? x).map fun _ => (b.leading x k).map Binding.queue := by
  cases he : b.exchange? x with
  | none => rw [targets, he, Option.map_none, Option.map_none]
  | some e =>
    have hfilter : b.bindings.filter
        (fun r => r.exchange == x && e.kind.selects r.routingKey k) = b.leading x k := by
      refine List.filter_congr fun r _ => ?_
      rw [Bool.eq_iff_iff, Bool.and_eq_true, beq_iff_eq, e.kind.selects_iff, decide_eq_true_eq,
        Leads, he]
      simp
    rw [targets, he, Option.map_some, Option.map_some, hfilter]

namespace Bound

theorem empty : Bound {} :=
  ⟨nofun, nofun, .nil⟩

theorem extend (hb : Bound b) (h : Extends b b') (hbindings : b'.bindings = b.bindings) :
    Bound b' := by
  refine ⟨fun r hr => ?_, fun r hr => ?_, h.nodup hb.nodup⟩
  · obtain ⟨e, he⟩ := Option.isSome_iff_exists.mp (hb.exchanges r (hbindings ▸ hr))
    rw [h.exchanges r.exchange e he]
    rfl
  · have hold := hb.queues r (hbindings ▸ hr)
    rw [← isSome_spec?] at hold ⊢
    obtain ⟨s, hs⟩ := Option.isSome_iff_exists.mp hold
    rw [h.specs r.queue s hs]
    rfl

theorem declareExchange (hb : Bound b) (spec : ExchangeSpec) :
    Bound (b.declareExchange spec).1 := by
  refine hb.extend (Bus.quiet_declareExchange b spec).graph ?_
  unfold Broker.declareExchange whenReachable
  repeat' split
  all_goals rfl

theorem declareQueue (hb : Bound b) (spec : QueueSpec) : Bound (b.declareQueue spec).1 := by
  refine hb.extend (Bus.quiet_declareQueue b spec).graph ?_
  unfold Broker.declareQueue whenReachable
  repeat' split
  all_goals rfl

theorem bind (hb : Bound b) (r : Binding) : Bound (b.bind r).1 := by
  have hnodup := (Bus.quiet_bind b r).graph.nodup hb.nodup
  unfold Broker.bind whenReachable at hnodup ⊢
  split
  · split
    · exact hb
    split
    · exact hb
    split
    · exact hb
    · -- the one branch that adds a binding comes after both of its ends were looked up
      next hreach hexchange hqueue hnew =>
      rw [if_pos hreach, if_neg hexchange, if_neg hqueue, if_neg hnew] at hnodup
      rw [Option.isNone_iff_eq_none, ← ne_eq, ← Option.isSome_iff_ne_none] at hexchange hqueue
      refine ⟨fun x hx => ?_, fun x hx => ?_, hnodup⟩
      · rcases List.mem_append.mp hx with hx | hx
        · exact hb.exchanges x hx
        · exact List.mem_singleton.mp hx ▸ hexchange
      · rcases List.mem_append.mp hx with hx | hx
        · exact hb.queues x hx
        · exact List.mem_singleton.mp hx ▸ hqueue
  · exact hb

theorem declareEntity (hb : Bound b) (e : Topology.Entity) : Bound (b.declareEntity e).1 := by
  cases e with
  | exchange spec => exact hb.declareExchange spec
  | queue spec => exact hb.declareQueue spec
  | binding r => exact hb.bind r

theorem perform {s : Bus} (hb : Bound s.broker) (op : Bus.Op) : Bound (s.perform op).1.broker := by
  by_cases hop : op.Declares
  · cases op with
    | declare t => exact Bus.declare_induction (fun _ e h => h.declareEntity e) hb t
    | declareEntity e => exact hb.declareEntity e
    | _ => exact hop.elim
  · have hgraph := Bus.sameGraph_perform s hop
    exact hb.extend hgraph.extends hgraph.bindings

theorem run (ops : List Bus.Op) : Bound (Bus.History.run ops).broker :=
  Bus.History.run_induction (P := fun h => Bound h.broker) .empty (fun _ op h => h.perform op) ops

theorem knownTargets (hb : Bound b) (x k : String) :
    b.knownTargets x k = (b.leading x k).map Binding.queue := by
  have hknown : ((b.leading x k).map Binding.queue).filter (fun q => (b.queue? q).isSome) =
      (b.leading x k).map Binding.queue := by
    refine List.filter_eq_self.mpr fun q hq => ?_
    obtain ⟨r, hr, rfl⟩ := List.mem_map.mp hq
    exact hb.queues r (mem_leading.mp hr).1
  rw [Broker.knownTargets, targets_eq]
  cases he : b.exchange? x with
  | some e => exact hknown
  | none =>
    have hnone : b.leading x k = [] := by
      refine List.filter_eq_nil_iff.mpr fun r _ => ?_
      simp [Leads, he]
    rw [hnone]
    rfl

theorem count_knownTargets (hb : Bound b) (x k n : String) :
    (b.knownTargets x k).count n = ((b.leading x k).filter fun r => r.queue = n).length := by
  rw [hb.knownTargets, List.count_eq_countP, List.countP_map, List.countP_eq_length_filter]
  congr 1

theorem route_of_undeclared {m : StoredMessage} (h : b.exchange? m.exchange = none) :
    b.route m = (b, none) := by
  rw [route, targets_eq, h]
  rfl

theorem route_of_declared (hb : Bound b) {m : StoredMessage}
    (h : (b.exchange? m.exchange).isSome) :
    b.route m = (b.enqueueAll m ((b.leading m.exchange m.routingKey).map Binding.queue),
      some ((b.leading m.exchange m.routingKey).map Binding.queue)) := by
  obtain ⟨e, he⟩ := Option.isSome_iff_exists.mp h
  have hknown := hb.knownTargets m.exchange m.routingKey
  rw [Broker.knownTargets, targets_eq, he, Option.map_some, Option.getD_some] at hknown
  rw [route, targets_eq, he, Option.map_some]
  dsimp only
  rw [hknown]

theorem route_snd (hb : Bound b) (m : StoredMessage) :
    (b.route m).2 = (b.exchange? m.exchange).map fun _ =>
      (b.leading m.exchange m.routingKey).map Binding.queue := by
  cases he : b.exchange? m.exchange with
  | none => rw [route_of_undeclared he, Option.map_none]
  | some e => rw [hb.route_of_declared (by rw [he]; rfl), Option.map_some]

end Bound

/-- A routed message comes to a queue once at most, and routing tells how many queues got it. -/
structure RoutedOnce (b : Broker) (m : StoredMessage) : Prop where
  copies : ∀ n, ((b.route m).1.readyMessages n).length ≤ (b.readyMessages n).length + 1
  told : ∀ queues, (b.route m).2 = some queues → queues.length = queues.dedup.length

/-- A routed message comes to a queue once for each binding that leads it there, and routing tells
how many such bindings there are. That is once at most exactly if no queue has two of them. -/
structure RoutedByBindings (b : Broker) (m : StoredMessage) : Prop where
  copies : ∀ n, ∃ new, (b.route m).1.readyMessages n = b.readyMessages n ++ new ∧
    new.length = ((b.leading m.exchange m.routingKey).filter fun r => r.queue = n).length ∧
    ∀ c ∈ new, c = { m with copy := c.copy }
  told : (b.route m).2.map List.length =
    (b.exchange? m.exchange).map fun _ => (b.leading m.exchange m.routingKey).length
  once : b.RoutedOnce m ↔ ∀ r ∈ b.bindings, ∀ r' ∈ b.bindings,
    b.Leads m.exchange m.routingKey r → b.Leads m.exchange m.routingKey r' →
      r.queue = r'.queue → r = r'

theorem length_route (b : Broker) (m : StoredMessage) (n : String) :
    ((b.route m).1.readyMessages n).length =
      (b.readyMessages n).length + (b.knownTargets m.exchange m.routingKey).count n := by
  obtain ⟨new, hnew⟩ := posted_route b m
  rw [hnew.ready, List.length_append, hnew.count]

namespace Bound

theorem routedOnce_iff_nodup (hb : Bound b) (m : StoredMessage) :
    b.RoutedOnce m ↔ (b.knownTargets m.exchange m.routingKey).Nodup := by
  constructor
  · intro honce
    refine List.nodup_iff_count_le_one.mpr fun n => ?_
    have hcopies := honce.copies n
    rw [length_route] at hcopies
    omega
  · intro hnodup
    refine ⟨fun n => ?_, fun queues htold => ?_⟩
    · have hcount := List.nodup_iff_count_le_one.mp hnodup n
      rw [length_route]
      omega
    · rw [hb.route_snd, Option.map_eq_some_iff] at htold
      obtain ⟨e, -, rfl⟩ := htold
      rw [← hb.knownTargets, hnodup.dedup]

theorem routedOnce_iff (hb : Bound b) (m : StoredMessage) :
    b.RoutedOnce m ↔ ∀ r ∈ b.bindings, ∀ r' ∈ b.bindings,
      b.Leads m.exchange m.routingKey r → b.Leads m.exchange m.routingKey r' →
        r.queue = r'.queue → r = r' := by
  have hleading : (b.leading m.exchange m.routingKey).Nodup := hb.nodup.filter _
  rw [hb.routedOnce_iff_nodup, hb.knownTargets, List.nodup_map_iff_inj_on hleading]
  constructor
  · intro hinj r hr r' hr' hleads hleads'
    exact hinj r (mem_leading.mpr ⟨hr, hleads⟩) r' (mem_leading.mpr ⟨hr', hleads'⟩)
  · intro hinj r hr r' hr'
    obtain ⟨hr, hleads⟩ := mem_leading.mp hr
    obtain ⟨hr', hleads'⟩ := mem_leading.mp hr'
    exact hinj r hr r' hr' hleads hleads'

end Bound
end Broker

namespace Bus.History

open Broker

/-- Whatever clients declare and do, routing makes one copy for each binding that leads a message,
and tells how many it made. -/
theorem routedByBindings_of_run (ops : List Op) (m : StoredMessage) :
    (run ops).broker.RoutedByBindings m := by
  have hb := Bound.run ops
  obtain ⟨new, hnew⟩ := posted_route (run ops).broker m
  refine ⟨fun n => ⟨new n, hnew.ready n, ?_, hnew.alike n⟩, ?_, hb.routedOnce_iff m⟩
  · rw [hnew.count, hb.count_knownTargets]
  · rw [hb.route_snd, Option.map_map]
    simp [Function.comp_def]

/-- A queue that is bound to an exchange by two patterns that both match gets a message twice. -/
theorem not_routedOnce_of_overlapping :
    ¬ ∀ (ops : List Op) (m : StoredMessage), (run ops).broker.RoutedOnce m := by
  intro h
  have honce := h
    [.declareEntity (.exchange ⟨"orders", .topic, true⟩),
      .declareEntity (.queue ⟨"work", true, none⟩),
      .declareEntity (.binding ⟨"work", "orders", "order.#"⟩),
      .declareEntity (.binding ⟨"work", "orders", "order.*"⟩)]
    ⟨0, "orders", "order.created", [], none, false, 0⟩
  have hcopies := honce.copies "work"
  revert hcopies
  decide

end Bus.History
end OutcomeRelay
