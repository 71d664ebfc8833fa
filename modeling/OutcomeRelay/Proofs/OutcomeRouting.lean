import OutcomeRelay.Proofs.BusRoutes
import OutcomeRelay.Proofs.DeclaredTopology
import OutcomeRelay.Proofs.TopicKeys

/-!
The ways of payment outcomes. Where the topology of the names is declared, the route of an outcome
leads to its own work queue alone, and what dies in a work queue goes to its own dead-letter queue
alone.
-/

namespace OutcomeRelay

namespace TopologyNames

variable (n : TopologyNames)

def workQueue : PaymentStatus → String
  | .success => n.successQueue
  | .failed => n.failedQueue

def deadLetterQueue : PaymentStatus → String
  | .success => n.successDlq
  | .failed => n.failedDlq

def deadLetterKey : PaymentStatus → String
  | .success => n.successDlqRoutingKey
  | .failed => n.failedDlqRoutingKey

def routeBinding (s : PaymentStatus) : Binding :=
  ⟨n.workQueue s, n.exchange, (n.routes.target s).routingKey⟩

def deadLetterBinding (s : PaymentStatus) : Binding :=
  ⟨n.deadLetterQueue s, n.dlxExchange, n.deadLetterKey s⟩

theorem mem_bindings {r : Binding} :
    r ∈ n.topology.bindings ↔ ∃ s, r = n.routeBinding s ∨ r = n.deadLetterBinding s := by
  constructor
  · intro h
    simp only [topology, List.mem_cons, List.not_mem_nil, or_false] at h
    rcases h with rfl | rfl | rfl | rfl
    · exact ⟨.success, .inl rfl⟩
    · exact ⟨.failed, .inl rfl⟩
    · exact ⟨.success, .inr rfl⟩
    · exact ⟨.failed, .inr rfl⟩
  · rintro ⟨s, rfl | rfl⟩ <;> cases s <;>
      simp [topology, routeBinding, deadLetterBinding, workQueue, deadLetterQueue, deadLetterKey,
        routes, OutcomeRoutes.target]

theorem exchange_target (s : PaymentStatus) : (n.routes.target s).exchange = n.exchange := by
  cases s <;> rfl

/-- Names that keep the paths of the outcomes apart: the topology is sound, the routing keys are
different keys without wildcards, and the dead-letter keys are different. -/
structure Parted : Prop where
  valid : n.topology.validate = .ok ()
  apart : n.successRoutingKey ≠ n.failedRoutingKey
  literal : ∀ s, Pattern.Literal (n.routes.target s).routingKey
  deadApart : n.successDlqRoutingKey ≠ n.failedDlqRoutingKey

/-- Names that tell the outcomes apart: the topology is sound, the routing keys are different keys
without wildcards, and so are the dead-letter keys, which may have some. -/
structure Separating : Prop where
  valid : n.topology.validate = .ok ()
  given : ∀ s, (n.routes.target s).routingKey ≠ ""
  apart : n.successRoutingKey ≠ n.failedRoutingKey
  literal : ∀ s, Pattern.Literal (n.routes.target s).routingKey
  deadApart : n.successDlqRoutingKey ≠ n.failedDlqRoutingKey

variable {n}

theorem exchange_ne_empty (h : n.topology.validate = .ok ()) : n.exchange ≠ "" := by
  intro hempty
  simp [Topology.validate, Topology.fault?, topology, Topology.exchangeFault?, hempty] at h

theorem exchanges_ne (h : n.topology.Sound) : n.exchange ≠ n.dlxExchange := by
  simpa [topology] using h.exchanges

theorem queues_nodup (h : n.topology.Sound) :
    [n.successQueue, n.failedQueue, n.successDlq, n.failedDlq].Nodup :=
  h.queues

theorem workQueue_inj (h : n.topology.Sound) {s s' : PaymentStatus} :
    n.workQueue s = n.workQueue s' ↔ s = s' := by
  have hnodup := queues_nodup h
  cases s <;> cases s' <;> simp_all [workQueue, eq_comm]

theorem deadLetterQueue_inj (h : n.topology.Sound) {s s' : PaymentStatus} :
    n.deadLetterQueue s = n.deadLetterQueue s' ↔ s = s' := by
  have hnodup := queues_nodup h
  cases s <;> cases s' <;> simp_all [deadLetterQueue, eq_comm]

theorem workQueue_ne_deadLetterQueue (h : n.topology.Sound) (s s' : PaymentStatus) :
    n.workQueue s ≠ n.deadLetterQueue s' := by
  have hnodup := queues_nodup h
  cases s <;> cases s' <;> simp_all [workQueue, deadLetterQueue]

namespace Parted

theorem sound (h : n.Parted) : n.topology.Sound :=
  Topology.sound_of_validate h.valid

theorem routingKey_inj (h : n.Parted) {s s' : PaymentStatus} :
    (n.routes.target s).routingKey = (n.routes.target s').routingKey ↔ s = s' := by
  have hapart := h.apart
  cases s <;> cases s' <;> simp [routes, OutcomeRoutes.target, hapart, hapart.symm]

theorem deadLetterKey_inj (h : n.Parted) {s s' : PaymentStatus} :
    n.deadLetterKey s = n.deadLetterKey s' ↔ s = s' := by
  have hapart := h.deadApart
  cases s <;> cases s' <;> simp [deadLetterKey, hapart, hapart.symm]

theorem selects_route (h : n.Parted) (s : PaymentStatus) {r : Binding}
    (hr : r ∈ n.topology.bindings) :
    (r.exchange = n.exchange ∧
      ExchangeKind.topic.selects r.routingKey (n.routes.target s).routingKey = true) ↔
      r = n.routeBinding s := by
  obtain ⟨s', rfl | rfl⟩ := n.mem_bindings.mp hr
  · have hmatches : ExchangeKind.topic.selects (n.routeBinding s').routingKey
        (n.routes.target s).routingKey = true ↔ s' = s := by
      rw [ExchangeKind.selects, routeBinding, Pattern.matchesKey_literal (h.literal s'),
        decide_eq_true_eq, h.routingKey_inj]
    rw [hmatches]
    constructor
    · rintro ⟨-, rfl⟩
      rfl
    · intro heq
      exact ⟨rfl, h.routingKey_inj.mp (congrArg Binding.routingKey heq)⟩
  · refine ⟨fun hboth => absurd hboth.1.symm (exchanges_ne h.sound), fun heq => ?_⟩
    exact absurd (congrArg Binding.exchange heq).symm (exchanges_ne h.sound)

theorem selects_deadLetter (h : n.Parted) (s : PaymentStatus) {r : Binding}
    (hr : r ∈ n.topology.bindings) :
    (r.exchange = n.dlxExchange ∧
      ExchangeKind.direct.selects r.routingKey (n.deadLetterKey s) = true) ↔
      r = n.deadLetterBinding s := by
  obtain ⟨s', rfl | rfl⟩ := n.mem_bindings.mp hr
  · refine ⟨fun hboth => absurd hboth.1 (exchanges_ne h.sound), fun heq => ?_⟩
    exact absurd (congrArg Binding.exchange heq) (exchanges_ne h.sound)
  · have hmatches : ExchangeKind.direct.selects (n.deadLetterBinding s').routingKey
        (n.deadLetterKey s) = true ↔ s' = s := by
      rw [ExchangeKind.selects, beq_iff_eq, deadLetterBinding, h.deadLetterKey_inj]
    rw [hmatches]
    constructor
    · rintro ⟨-, rfl⟩
      rfl
    · intro heq
      exact ⟨rfl, h.deadLetterKey_inj.mp (congrArg Binding.routingKey heq)⟩

end Parted

namespace Separating

theorem parted (h : n.Separating) : n.Parted :=
  ⟨h.valid, h.apart, h.literal, h.deadApart⟩

theorem sound (h : n.Separating) : n.topology.Sound :=
  h.parted.sound

end Separating
end TopologyNames

namespace Broker

structure Separates (b : Broker) (n : TopologyNames) : Prop where
  routes : ∀ s, b.knownTargets (n.routes.target s).exchange (n.routes.target s).routingKey =
    [n.workQueue s]
  dies : ∀ queue t, b.deadLetterTarget? queue = some t → ∃ s, queue = n.workQueue s ∧
    b.knownTargets t.exchange t.routingKey = [n.deadLetterQueue s]

theorem Separates.congr {b b' : Broker} {n : TopologyNames} (h : b.Separates n)
    (hb : SameGraph b b') : b'.Separates n where
  routes s := (hb.knownTargets _ _).trans (h.routes s)
  dies queue t ht := by
    rw [hb.deadLetterTarget?] at ht
    obtain ⟨s, hs, htargets⟩ := h.dies queue t ht
    exact ⟨s, hs, (hb.knownTargets _ _).trans htargets⟩

theorem Realizes.knownTargets_eq {b : Broker} {t : Topology} (hb : b.Realizes t) (ht : t.Sound)
    {e : ExchangeSpec} {key : String} {r : Binding} (he : e ∈ t.exchanges) (hr : r ∈ t.bindings)
    (hselects : ∀ x ∈ t.bindings,
      (x.exchange = e.name ∧ e.kind.selects x.routingKey key = true) ↔ x = r) :
    b.knownTargets e.name key = [r.queue] := by
  have hexchange : b.exchange? e.name = some e := (hb.exchanges _).trans (ht.exchange?_of_mem he)
  have hknown : (b.queue? r.queue).isSome := by
    rw [← isSome_spec?, hb.specs]
    exact (ht.bindings r hr).2
  have hfilter : b.bindings.filter
      (fun x => x.exchange == e.name && e.kind.selects x.routingKey key) = [r] := by
    have hcongr : ∀ x ∈ b.bindings,
        (x.exchange == e.name && e.kind.selects x.routingKey key) = (x == r) := by
      intro x hx
      rw [Bool.eq_iff_iff, Bool.and_eq_true, beq_iff_eq, beq_iff_eq]
      exact hselects x ((hb.bindings x).mp hx)
    rw [List.filter_congr hcongr, List.filter_beq,
      List.count_eq_one_of_mem hb.nodup ((hb.bindings r).mpr hr)]
    rfl
  rw [knownTargets, targets, hexchange, Option.map_some, Option.getD_some, hfilter, List.map_singleton,
    List.filter_eq_self.mpr fun q hq => List.mem_singleton.mp hq ▸ hknown]

theorem Realizes.dies_into {b : Broker} {n : TopologyNames} (hb : b.Realizes n.topology)
    {queue : String} {t : DeadLetterTarget} (h : b.deadLetterTarget? queue = some t) :
    ∃ s, queue = n.workQueue s ∧ t = ⟨n.dlxExchange, n.deadLetterKey s⟩ := by
  rw [deadLetterTarget?, hb.specs] at h
  obtain ⟨q, hq, htarget⟩ := Option.bind_eq_some_iff.mp h
  have hname : q.name = queue := by simpa using List.find?_some hq
  have hmem := List.mem_of_find?_eq_some hq
  simp only [TopologyNames.topology, List.mem_cons, List.not_mem_nil, or_false] at hmem
  rcases hmem with rfl | rfl | rfl | rfl
  · exact ⟨.success, hname.symm, (Option.some.inj htarget).symm⟩
  · exact ⟨.failed, hname.symm, (Option.some.inj htarget).symm⟩
  · cases htarget
  · cases htarget

theorem Realizes.separates {b : Broker} {n : TopologyNames} (hb : b.Realizes n.topology)
    (hn : n.Parted) : b.Separates n where
  routes s := by
    rw [n.exchange_target]
    exact hb.knownTargets_eq hn.sound (e := ⟨n.exchange, .topic, true⟩) (r := n.routeBinding s)
      (.head _) (n.mem_bindings.mpr ⟨s, .inl rfl⟩) fun _ => hn.selects_route s
  dies queue t ht := by
    obtain ⟨s, hs, rfl⟩ := hb.dies_into ht
    refine ⟨s, hs, ?_⟩
    exact hb.knownTargets_eq hn.sound (e := ⟨n.dlxExchange, .direct, true⟩)
      (r := n.deadLetterBinding s) (.tail _ (.head _)) (n.mem_bindings.mpr ⟨s, .inr rfl⟩)
      fun _ => hn.selects_deadLetter s

end Broker
end OutcomeRelay
