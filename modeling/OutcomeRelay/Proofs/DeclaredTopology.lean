import Mathlib.Data.List.Nodup
import OutcomeRelay.Proofs.EntityDeclaration
import OutcomeRelay.Topology.Names

/-!
A sound topology on a broker. Declared on a broker that has nothing yet, it is there as it was
written, and from then on a queue with a dead-letter queue leads there what it rejects.
-/

namespace OutcomeRelay

namespace Topology

variable {t : Topology}

theorem nodup_of_scan {α φ : Type} {name : α → String} {scan : List String → List α → Option φ}
    (cons : ∀ seen x xs, scan seen (x :: xs) = none →
      name x ∉ seen ∧ scan (name x :: seen) xs = none) {seen : List String} {xs : List α}
    (h : scan seen xs = none) : (xs.map name).Nodup ∧ ∀ n ∈ xs.map name, n ∉ seen := by
  induction xs generalizing seen with
  | nil => simp
  | cons x xs ih =>
    obtain ⟨hnew, hrest⟩ := cons seen x xs h
    obtain ⟨hnodup, hseen⟩ := ih hrest
    refine ⟨List.nodup_cons.mpr ⟨fun hmem => hseen _ hmem (.head _), hnodup⟩, fun n hn => ?_⟩
    rcases List.mem_cons.mp hn with rfl | hn
    · exact hnew
    · exact fun hmem => hseen n hn (.tail _ hmem)

theorem exchangeFault?_cons (seen : List String) (e : ExchangeSpec) (es : List ExchangeSpec)
    (h : exchangeFault? seen (e :: es) = none) :
    e.name ∉ seen ∧ exchangeFault? (e.name :: seen) es = none := by
  unfold exchangeFault? at h
  split at h
  · cases h
  split at h
  · cases h
  · next hnew => exact ⟨hnew, h⟩

theorem queueFault?_cons (t : Topology) (seen : List String) (q : QueueSpec) (qs : List QueueSpec)
    (h : t.queueFault? seen (q :: qs) = none) :
    q.name ∉ seen ∧ t.queueFault? (q.name :: seen) qs = none := by
  unfold queueFault? at h
  split at h
  · cases h
  split at h
  · cases h
  · next hnew => exact ⟨hnew, (Option.or_eq_none_iff.mp h).2⟩

theorem bindingFault?_eq_none {r : Binding} (h : t.bindingFault? r = none) :
    (t.exchange? r.exchange).isSome ∧ (t.queue? r.queue).isSome := by
  unfold bindingFault? at h
  split at h
  · cases h
  split at h
  · cases h
  · next hexchange hqueue =>
    rw [Option.isNone_iff_eq_none] at hexchange hqueue
    exact ⟨Option.isSome_iff_ne_none.mpr hexchange, Option.isSome_iff_ne_none.mpr hqueue⟩

structure Sound (t : Topology) : Prop where
  exchanges : (t.exchanges.map ExchangeSpec.name).Nodup
  queues : (t.queues.map QueueSpec.name).Nodup
  bindings : ∀ r ∈ t.bindings, (t.exchange? r.exchange).isSome ∧ (t.queue? r.queue).isSome

theorem sound_of_validate (h : t.validate = .ok ()) : t.Sound := by
  unfold validate at h
  split at h
  · cases h
  · next hnone =>
    obtain ⟨hexchanges, hrest⟩ := Option.or_eq_none_iff.mp hnone
    obtain ⟨hqueues, hbindings⟩ := Option.or_eq_none_iff.mp hrest
    refine ⟨(nodup_of_scan exchangeFault?_cons hexchanges).1,
      (nodup_of_scan t.queueFault?_cons hqueues).1, fun r hr => ?_⟩
    exact bindingFault?_eq_none (List.findSome?_eq_none_iff.mp hbindings r hr)

theorem find?_of_nodup {α : Type} {name : α → String} {xs : List α} (h : (xs.map name).Nodup)
    {x : α} (hx : x ∈ xs) : xs.find? (fun y => name y == name x) = some x := by
  cases hfind : xs.find? fun y => name y == name x with
  | none => exact absurd (by simp) (List.find?_eq_none.mp hfind x hx)
  | some y =>
    have hname : name y = name x := by simpa using List.find?_some hfind
    rw [List.inj_on_of_nodup_map h (List.mem_of_find?_eq_some hfind) hx hname]

theorem Sound.exchange?_of_mem (h : t.Sound) {e : ExchangeSpec} (he : e ∈ t.exchanges) :
    t.exchange? e.name = some e :=
  find?_of_nodup h.exchanges he

theorem Sound.queue?_of_mem (h : t.Sound) {q : QueueSpec} (hq : q ∈ t.queues) :
    t.queue? q.name = some q :=
  find?_of_nodup h.queues hq

theorem Sound.exchange_inj (h : t.Sound) {e e' : ExchangeSpec} (he : e ∈ t.exchanges)
    (he' : e' ∈ t.exchanges) (hname : e.name = e'.name) : e = e' :=
  List.inj_on_of_nodup_map h.exchanges he he' hname

theorem Sound.queue_inj (h : t.Sound) {q q' : QueueSpec} (hq : q ∈ t.queues) (hq' : q' ∈ t.queues)
    (hname : q.name = q'.name) : q = q' :=
  List.inj_on_of_nodup_map h.queues hq hq' hname

theorem Sound.exchange?_eq_some_iff (h : t.Sound) {n : String} {e : ExchangeSpec} :
    t.exchange? n = some e ↔ e.name = n ∧ e ∈ t.exchanges := by
  constructor
  · intro he
    exact ⟨by simpa using List.find?_some he, List.mem_of_find?_eq_some he⟩
  · rintro ⟨rfl, he⟩
    exact h.exchange?_of_mem he

theorem Sound.queue?_eq_some_iff (h : t.Sound) {n : String} {q : QueueSpec} :
    t.queue? n = some q ↔ q.name = n ∧ q ∈ t.queues := by
  constructor
  · intro hq
    exact ⟨by simpa using List.find?_some hq, List.mem_of_find?_eq_some hq⟩
  · rintro ⟨rfl, hq⟩
    exact h.queue?_of_mem hq

theorem exchange_mem_entities {e : ExchangeSpec} : .exchange e ∈ t.entities ↔ e ∈ t.exchanges := by
  simp [entities]

theorem queue_mem_entities {q : QueueSpec} : .queue q ∈ t.entities ↔ q ∈ t.queues := by
  simp [entities]

theorem binding_mem_entities {r : Binding} : .binding r ∈ t.entities ↔ r ∈ t.bindings := by
  simp [entities]

theorem mem_of_before_binding {done rest : List Entity} {r : Binding}
    (h : t.entities = done ++ .binding r :: rest) {x : Entity} (hx : x ∈ t.entities)
    (hends : ∀ r, x ≠ .binding r) : x ∈ done := by
  have hlast : t.entities.Pairwise fun x y => (∃ r, x = .binding r) → ∃ r, y = .binding r := by
    simp only [entities, List.pairwise_append, List.pairwise_map]
    simp [List.pairwise_of_forall]
  rw [h, List.pairwise_append, List.pairwise_cons] at hlast
  rw [h, List.mem_append, List.mem_cons] at hx
  rcases hx with hx | rfl | hx
  · exact hx
  · exact absurd rfl (hends r)
  · obtain ⟨r', hr'⟩ := hlast.2.1.1 x hx ⟨r, rfl⟩
    exact absurd hr' (hends r')

end Topology

namespace Broker

variable {b b' : Broker}

structure Realizes (b : Broker) (t : Topology) : Prop where
  exchanges : ∀ n, b.exchange? n = t.exchange? n
  specs : ∀ n, b.spec? n = t.queue? n
  bindings : ∀ r, r ∈ b.bindings ↔ r ∈ t.bindings
  nodup : b.bindings.Nodup

theorem Joins.realizes {t : Topology} (h : Joins {} t.entities b) (ht : t.Sound)
    (hnodup : b.bindings.Nodup) : b.Realizes t where
  exchanges n := by
    refine Option.ext fun e => ?_
    rw [exchange?_eq_some_iff, h, ht.exchange?_eq_some_iff, Topology.exchange_mem_entities]
    simp [Includes, exchange?]
  specs n := by
    refine Option.ext fun q => ?_
    rw [spec?_eq_some_iff, h, ht.queue?_eq_some_iff, Topology.queue_mem_entities]
    simp [Includes, spec?, queue?]
  bindings r := by
    have hr := h (.binding r)
    rw [Topology.binding_mem_entities] at hr
    simpa [Includes] using hr
  nodup := hnodup

structure Agrees (b : Broker) (t : Topology) : Prop where
  exchanges : ∀ e ∈ t.exchanges, ∀ old, b.exchange? e.name = some old →
    old.kind = e.kind ∧ old.durable = e.durable
  queues : ∀ q ∈ t.queues, ∀ old, b.spec? q.name = some old →
    old.durable = q.durable ∧ old.deadLetter = q.deadLetter

theorem declare_eq_declared {t : Topology} (h : t.validate = .ok ()) :
    ((b.declare t).1, (b.declare t).2.1) = b.declared t.entities := by
  unfold Broker.declare Topology.declareWith
  rw [h]
  rfl

section Conflicts

variable {t : Topology} {done rest : List Topology.Entity} {e : Topology.Entity}

theorem not_refuses_binding (ht : t.Sound) {r : Binding}
    (hsplit : t.entities = done ++ .binding r :: rest) (h : Joins b done b') :
    ¬b'.Refuses (.binding r) := by
  have hr : r ∈ t.bindings := Topology.binding_mem_entities.mp (by rw [hsplit]; simp)
  obtain ⟨hexchange, hqueue⟩ := ht.bindings r hr
  obtain ⟨x, hx⟩ := Option.isSome_iff_exists.mp hexchange
  obtain ⟨q, hq⟩ := Option.isSome_iff_exists.mp hqueue
  rw [ht.exchange?_eq_some_iff] at hx
  rw [ht.queue?_eq_some_iff] at hq
  have hhere : b'.exchange? r.exchange = some x := exchange?_eq_some_iff.mpr
    ⟨hx.1, (h _).mpr (.inr (Topology.mem_of_before_binding hsplit
      (Topology.exchange_mem_entities.mpr hx.2) nofun))⟩
  have hthere : b'.spec? r.queue = some q := spec?_eq_some_iff.mpr
    ⟨hq.1, (h _).mpr (.inr (Topology.mem_of_before_binding hsplit
      (Topology.queue_mem_entities.mpr hq.2) nofun))⟩
  simp [Refuses, hhere, hthere]

theorem refuses_of_joins (ht : t.Sound) (hsplit : t.entities = done ++ e :: rest)
    (h : Joins b done b') (refuses : b'.Refuses e) : b.Refuses e ∧ ∀ r, e ≠ .binding r := by
  have hmem : ∀ x ∈ done, x ∈ t.entities := fun x hx => by rw [hsplit]; simp [hx]
  have he : e ∈ t.entities := by rw [hsplit]; simp
  cases e with
  | exchange e =>
    obtain ⟨old, hold, hne⟩ := refuses
    refine ⟨⟨old, ?_, hne⟩, nofun⟩
    obtain ⟨hname, hincludes⟩ := exchange?_eq_some_iff.mp hold
    rcases (h _).mp hincludes with hbefore | hdone
    · exact exchange?_eq_some_iff.mpr ⟨hname, hbefore⟩
    -- no name comes twice, so that the entity of this name is the one itself
    · have hsame := ht.exchange_inj (Topology.exchange_mem_entities.mp (hmem _ hdone))
        (Topology.exchange_mem_entities.mp he) hname
      exact absurd ⟨by rw [hsame], by rw [hsame]⟩ hne
  | queue q =>
    obtain ⟨old, hold, hne⟩ := refuses
    refine ⟨⟨old, ?_, hne⟩, nofun⟩
    obtain ⟨hname, hincludes⟩ := spec?_eq_some_iff.mp hold
    rcases (h _).mp hincludes with hbefore | hdone
    · exact spec?_eq_some_iff.mpr ⟨hname, hbefore⟩
    · have hsame := ht.queue_inj (Topology.queue_mem_entities.mp (hmem _ hdone))
        (Topology.queue_mem_entities.mp he) hname
      exact absurd ⟨by rw [hsame], by rw [hsame]⟩ hne
  | binding r => exact absurd refuses (not_refuses_binding ht hsplit h)

theorem Agrees.not_refuses (h : b.Agrees t) (he : e ∈ t.entities) (hends : ∀ r, e ≠ .binding r) :
    ¬b.Refuses e := by
  cases e with
  | exchange e =>
    rintro ⟨old, hold, hne⟩
    exact hne (h.exchanges e (Topology.exchange_mem_entities.mp he) old hold)
  | queue q =>
    rintro ⟨old, hold, hne⟩
    exact hne (h.queues q (Topology.queue_mem_entities.mp he) old hold)
  | binding r => exact absurd rfl (hends r)

theorem Joins.agrees (h : Joins b t.entities b') : b.Agrees t where
  exchanges e he old hold := by
    have hnew : b'.exchange? e.name = some e :=
      (h (.exchange e)).mpr (.inr (Topology.exchange_mem_entities.mpr he))
    obtain ⟨hname, hincludes⟩ := exchange?_eq_some_iff.mp hold
    have hstill := exchange?_eq_some_iff.mpr ⟨hname, (h _).mpr (.inl hincludes)⟩
    obtain rfl := Option.some.inj (hstill.symm.trans hnew)
    exact ⟨rfl, rfl⟩
  queues q hq old hold := by
    have hnew : b'.spec? q.name = some q :=
      (h (.queue q)).mpr (.inr (Topology.queue_mem_entities.mpr hq))
    obtain ⟨hname, hincludes⟩ := spec?_eq_some_iff.mp hold
    have hstill := spec?_eq_some_iff.mpr ⟨hname, (h _).mpr (.inl hincludes)⟩
    obtain rfl := Option.some.inj (hstill.symm.trans hnew)
    exact ⟨rfl, rfl⟩

end Conflicts

theorem declare_of_agrees {t : Topology} (reachable : b.reachable = true)
    (h : t.validate = .ok ()) (agrees : b.Agrees t) :
    (b.declare t).2.1 = .ok () ∧ Joins b t.entities (b.declare t).1 := by
  have hcomes := comes_declared reachable t.entities
  rw [← declare_eq_declared h] at hcomes
  generalize hresult : ((b.declare t).1, (b.declare t).2.1) = result at hcomes
  cases hcomes with
  | through joins =>
    obtain ⟨rfl, hok⟩ := Prod.mk.inj hresult
    exact ⟨hok, joins⟩
  | upTo split joins refuses =>
    obtain ⟨hrefuses, hends⟩ := refuses_of_joins (Topology.sound_of_validate h) split joins refuses
    exact absurd hrefuses (agrees.not_refuses (by rw [split]; simp) hends)

theorem declare_of_validate {t : Topology} (h : t.validate = .ok ()) :
    (({} : Broker).declare t).2.1 = .ok () ∧ (({} : Broker).declare t).1.Realizes t := by
  obtain ⟨hok, hjoins⟩ := declare_of_agrees (b := {}) rfl h ⟨nofun, nofun⟩
  exact ⟨hok, hjoins.realizes (Topology.sound_of_validate h)
    ((Bus.quiet_declare {} t).graph.nodup .nil)⟩

/-- What a queue rejects goes to this target, and from there to this dead-letter queue. -/
structure DeadRoute (b : Broker) (queue : String) (target : DeadLetterTarget) (dlq : String) :
    Prop where
  leads : b.deadLetterTarget? queue = some target
  direct : ∃ e, b.exchange? target.exchange = some e ∧ e.kind = .direct
  known : (b.spec? dlq).isSome
  bound : ⟨dlq, target.exchange, target.routingKey⟩ ∈ b.bindings
  nodup : b.bindings.Nodup

namespace DeadRoute

variable {queue dlq : String} {target : DeadLetterTarget}

theorem mono (h : DeadRoute b queue target dlq) (hb : Extends b b') :
    DeadRoute b' queue target dlq := by
  obtain ⟨e, he, hkind⟩ := h.direct
  obtain ⟨s, hs⟩ := Option.isSome_iff_exists.mp h.known
  obtain ⟨q, hq, htarget⟩ := Option.bind_eq_some_iff.mp h.leads
  refine ⟨?_, ⟨e, hb.exchanges _ e he, hkind⟩, ?_, hb.bindings _ h.bound, hb.nodup h.nodup⟩
  · rw [deadLetterTarget?, hb.specs queue q hq]
    exact htarget
  · rw [hb.specs dlq s hs]
    rfl

theorem count (h : DeadRoute b queue target dlq) :
    (b.knownTargets target.exchange target.routingKey).count dlq = 1 := by
  obtain ⟨e, he, hkind⟩ := h.direct
  have hknown : (b.queue? dlq).isSome := by
    rw [← isSome_spec?]
    exact h.known
  rw [knownTargets, targets, he, Option.map_some, Option.getD_some,
    List.count_filter (p := fun q => (b.queue? q).isSome) hknown, List.count_eq_countP,
    List.countP_map, List.countP_filter,
    ← List.count_eq_one_of_mem h.nodup h.bound, List.count_eq_countP]
  -- a direct exchange selects a binding by its key alone
  refine List.countP_congr fun r _ => ?_
  obtain ⟨q, x, k⟩ := r
  simp [hkind, ExchangeKind.selects]

end DeadRoute

theorem Realizes.deadRoute {t : Topology} (h : b.Realizes t) (ht : t.Sound) {q d : QueueSpec}
    {e : ExchangeSpec} {key : String} (hq : q ∈ t.queues) (hd : d ∈ t.queues) (he : e ∈ t.exchanges)
    (leads : q.deadLetter = some ⟨e.name, key⟩) (direct : e.kind = .direct)
    (bound : ⟨d.name, e.name, key⟩ ∈ t.bindings) : DeadRoute b q.name ⟨e.name, key⟩ d.name where
  leads := by rw [deadLetterTarget?, h.specs, ht.queue?_of_mem hq, Option.bind_some, leads]
  direct := ⟨e, (h.exchanges _).trans (ht.exchange?_of_mem he), direct⟩
  known := by rw [h.specs, ht.queue?_of_mem hd, Option.isSome_some]
  bound := (h.bindings _).mpr bound
  nodup := h.nodup

end Broker
end OutcomeRelay
