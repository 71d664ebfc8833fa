import Mathlib.Data.List.Perm.Basic
import OutcomeRelay.Config.Basic
import OutcomeRelay.Proofs.ConfiguredRoutes
import OutcomeRelay.Proofs.RetrySettings
import OutcomeRelay.Proofs.TopologyDeclaration

/-!
What a configuration has to do with starting. The start declares the topology, registers the two
handlers, checks the retry settings of their queues and opens a consumer for each. On a broker that
is new this goes through for what validation accepts, and for nothing else that lets a publisher
send at all.
-/

namespace OutcomeRelay

namespace Dispatcher

variable {α γ σ : Type}

def start (consume : σ → Prepared α → σ × Except BusError γ) (close : σ → γ → σ)
    (c : DispatcherConfig) (r : HandlerRegistry α) (s : σ) :
    Except DispatchError (σ × Opening α γ) :=
  (prepare c r).map fun ps => openAll consume close (2 * ps.length) s (.proceed [] ps)

def startOn (c : DispatcherConfig) (r : HandlerRegistry α) (b : Broker) :
    Except DispatchError (Broker × Opening α Consumer) :=
  start (fun b p => b.consume p.queue p.config.effectivePrefetch) (fun b c => (b.close c).1) c r b

def Prepares (c : DispatcherConfig) (entry : String × α) (p : Prepared α) : Prop :=
  ∃ policy, (c.queue entry.1).retry.toPolicy? = .ok policy ∧
    p = ⟨entry.1, entry.2, c.queue entry.1, policy⟩

theorem prepareEach_ok_iff {c : DispatcherConfig} {entries : List (String × α)}
    {ps : List (Prepared α)} :
    prepareEach c entries = .ok ps ↔ List.Forall₂ (Prepares c) entries ps := by
  induction entries generalizing ps with
  | nil =>
    rw [prepareEach, List.forall₂_nil_left_iff]
    exact ⟨fun h => (Except.ok.inj h).symm, fun h => h ▸ rfl⟩
  | cons entry entries ih =>
    rw [prepareEach, List.forall₂_cons_left_iff]
    cases hpolicy : (c.queue entry.1).retry.toPolicy? with
    | error f =>
      refine ⟨nofun, ?_⟩
      rintro ⟨_, _, ⟨policy, hok, -⟩, -⟩
      cases hpolicy.symm.trans hok
    | ok policy =>
      constructor
      · intro h
        cases hrest : prepareEach c entries with
        | error e =>
          rw [hrest] at h
          cases h
        | ok rest =>
          rw [hrest] at h
          exact ⟨_, rest, ⟨policy, hpolicy, rfl⟩, ih.mp hrest, (Except.ok.inj h).symm⟩
      · rintro ⟨_, rest, ⟨policy', hok, rfl⟩, hrest, rfl⟩
        obtain rfl := Except.ok.inj (hpolicy.symm.trans hok)
        rw [ih.mpr hrest]
        rfl

theorem map_queue_of_prepares {c : DispatcherConfig} {entries : List (String × α)}
    {ps : List (Prepared α)} (h : List.Forall₂ (Prepares c) entries ps) :
    ps.map Prepared.queue = entries.map (·.1) := by
  induction h with
  | nil => rfl
  | cons hp _ ih =>
    obtain ⟨policy, -, rfl⟩ := hp
    rw [List.map_cons, List.map_cons, ih]

def Prepared.consumer (p : Prepared α) (id : Nat) : Consumer where
  id := id
  queue := p.queue
  prefetch := p.config.effectivePrefetch

def withConsumers (last : Nat) : List (Prepared α) → List (Prepared α × Consumer)
  | [] => []
  | p :: ps => (p, p.consumer (last + 1)) :: withConsumers (last + 1) ps

theorem openAll_of_known {b : Broker} {opened : List (Prepared α × Consumer)}
    {ps : List (Prepared α)} {fuel : Nat} (reachable : b.reachable = true)
    (known : ∀ p ∈ ps, (b.queue? p.queue).isSome) (enough : ps.length ≤ fuel) :
    openAll (fun b p => b.consume p.queue p.config.effectivePrefetch) (fun b c => (b.close c).1)
        fuel b (.proceed opened ps) =
      ({ b with lastConsumer := b.lastConsumer + ps.length },
        .started (opened ++ withConsumers b.lastConsumer ps)) := by
  induction ps generalizing b opened fuel with
  | nil =>
    rw [withConsumers, List.append_nil, Opening.proceed]
    cases fuel <;> rfl
  | cons p ps ih =>
    obtain ⟨fuel, rfl⟩ : ∃ n, fuel = n + 1 :=
      Nat.exists_eq_add_one_of_ne_zero (Nat.ne_of_gt (Nat.lt_of_lt_of_le (Nat.succ_pos _) enough))
    have hsome := Option.isSome_iff_ne_none.mp (known p (.head _))
    have hconsume : b.consume p.queue p.config.effectivePrefetch =
        ({ b with lastConsumer := b.lastConsumer + 1 }, .ok (p.consumer (b.lastConsumer + 1))) := by
      simp [Broker.consume, Broker.whenReachable, reachable, hsome, Prepared.consumer]
    have hrest := @ih { b with lastConsumer := b.lastConsumer + 1 }
      (opened ++ [(p, p.consumer (b.lastConsumer + 1))]) fuel reachable
      (fun p hp => known p (.tail _ hp)) (Nat.le_of_succ_le_succ enough)
    rw [Opening.proceed, openAll, hconsume]
    refine hrest.trans ?_
    rw [List.append_assoc, withConsumers, List.length_cons, Nat.add_right_comm, Nat.add_assoc]
    rfl

/-- A worker of this queue with these settings: its handler, retry policy and slots, and its
consumer. A setting of no slots stands for one, and without a prefetch there is one message for each
slot, as far as 16 bits go. -/
structure Serves (name : String) (handler : α) (config : QueueConfig) (w : Prepared α × Consumer) :
    Prop where
  queue : w.1.queue = name
  handler : w.1.handler = handler
  policy : config.retry.Makes w.1.policy
  works : ∀ grace, (w.1.worker grace).queue = name
  slots : ∀ grace, (w.1.worker grace).slots = max config.concurrency 1
  consumes : w.2.queue = name
  prefetch : w.2.prefetch = config.prefetch.getD (min (max config.concurrency 1) 65535)
  receives : w.2.cancelled = false

theorem serves_withConsumers {c : DispatcherConfig} {entries : List (String × α)}
    {ps : List (Prepared α)} (h : List.Forall₂ (Prepares c) entries ps) (last : Nat) :
    List.Forall₂ (fun e w => Serves e.1 e.2 (c.queue e.1) w) entries (withConsumers last ps) := by
  induction h generalizing last with
  | nil => exact .nil
  | cons hp _ ih =>
    obtain ⟨policy, hpolicy, rfl⟩ := hp
    have hmakes := (RetryConfig.toPolicy?_eq_ok_iff.mp hpolicy).2
    exact .cons ⟨rfl, rfl, hmakes, fun _ => rfl, fun _ => rfl, rfl, rfl, rfl⟩ (ih (last + 1))

theorem startOn_ok_iff {c : DispatcherConfig} {r : HandlerRegistry α} {b : Broker}
    (reachable : b.reachable = true) (known : ∀ e ∈ r.entries, (b.queue? e.1).isSome)
    (handled : r.entries ≠ []) {x : Broker × Opening α Consumer} :
    startOn c r b = .ok x ↔ ∃ ps, List.Forall₂ (Prepares c) r.sorted ps ∧
      x = ({ b with lastConsumer := b.lastConsumer + ps.length },
        .started (withConsumers b.lastConsumer ps)) := by
  rw [startOn, start, prepare, if_neg (by simpa using handled)]
  cases hps : prepareEach c r.sorted with
  | error e =>
    refine ⟨nofun, ?_⟩
    rintro ⟨ps, hprepares, -⟩
    cases hps.symm.trans (prepareEach_ok_iff.mpr hprepares)
  | ok ps =>
    have hprepares := prepareEach_ok_iff.mp hps
    have hknown : ∀ p ∈ ps, (b.queue? p.queue).isSome := by
      intro p hp
      have hmem := List.mem_map_of_mem (f := Prepared.queue) hp
      rw [map_queue_of_prepares hprepares] at hmem
      obtain ⟨e, he, hqueue⟩ := List.mem_map.mp hmem
      rw [← hqueue]
      exact known e (List.mem_mergeSort.mp he)
    rw [Except.map, openAll_of_known reachable hknown (by omega)]
    constructor
    · intro h
      exact ⟨ps, hprepares, (Except.ok.inj h).symm⟩
    · rintro ⟨ps', hprepares', rfl⟩
      obtain rfl := Except.ok.inj (hps.symm.trans (prepareEach_ok_iff.mpr hprepares'))
      rfl

end Dispatcher

theorem DispatcherConfig.queue_ofConsumers {n : TopologyNames} (h : n.successQueue ≠ n.failedQueue)
    (c : ConsumersConfig) :
    (ofConsumers n c).queue n.successQueue = c.success ∧
    (ofConsumers n c).queue n.failedQueue = c.failed := by
  have hne : (n.successQueue == n.failedQueue) = false := beq_false_of_ne h
  simp [queue, ofConsumers, withQueue, List.lookup_cons, hne]

namespace HandlerRegistry

theorem register_of_new {α : Type} {r : HandlerRegistry α} {queue : String}
    (h : r.get? queue = none) (handler : α) :
    r.register queue handler = .ok ⟨r.entries ++ [(queue, handler)]⟩ := by
  rw [register, h]
  rfl

theorem standard_of_ne {n : TopologyNames} (h : n.successQueue ≠ n.failedQueue)
    (simulateFailure : Bool) :
    standard n simulateFailure = .ok ⟨[(n.successQueue, ⟨.success, simulateFailure⟩),
      (n.failedQueue, ⟨.failed, simulateFailure⟩)]⟩ := by
  have hne : (n.failedQueue == n.successQueue) = false := beq_false_of_ne h.symm
  rw [standard, register_of_new rfl]
  exact register_of_new (by simp [get?, List.lookup_cons, hne]) _

end HandlerRegistry

namespace Config

open Dispatcher

inductive StartupError where
  | topology (error : BusError)
  | dispatch (error : DispatchError)
  deriving DecidableEq, Repr

def startup (c : Config) (simulateFailure : Bool) (b : Broker) :
    Except StartupError (Broker × Opening LoggingHandler Consumer) := do
  let declared := b.declare c.topology.topology
  declared.2.1.mapError .topology
  let r ← (HandlerRegistry.standard c.topology simulateFailure).mapError .dispatch
  (startOn (.ofConsumers c.topology c.consumers) r declared.1).mapError .dispatch

theorem retryFault?_eq_none_iff {name : String} {q : QueueConfig} :
    retryFault? (name, q) = none ↔ q.retry.Sound := by
  rw [← RetryConfig.exists_toPolicy?_iff]
  unfold retryFault?
  split
  · next p hp => exact ⟨fun _ => ⟨p, hp⟩, fun _ => rfl⟩
  · next f hf =>
    refine ⟨nofun, ?_⟩
    rintro ⟨p, hp⟩
    cases hf.symm.trans hp

theorem validate_ok_iff {c : Config} :
    c.validate = .ok () ↔ c.topology.topology.validate = .ok () ∧
      c.consumers.success.retry.Sound ∧ c.consumers.failed.retry.Sound ∧
      1 ≤ c.publisher.maxAttempts := by
  have htopology : c.topology.topology.validate = .ok () ↔ c.topology.topology.fault? = none := by
    rw [Topology.validate]
    split <;> simp_all
  have hvalidate : c.validate = .ok () ↔ c.fault? = none := by
    rw [validate]
    split <;> simp_all
  rw [hvalidate, htopology, fault?, Option.or_eq_none_iff, Option.or_eq_none_iff,
    Option.map_eq_none_iff, queues, List.findSome?_eq_none_iff]
  simp [retryFault?_eq_none_iff, Nat.one_le_iff_ne_zero, and_assoc]

def registry (c : Config) (simulateFailure : Bool) : HandlerRegistry LoggingHandler where
  entries := [(c.topology.successQueue, ⟨.success, simulateFailure⟩),
    (c.topology.failedQueue, ⟨.failed, simulateFailure⟩)]

variable {c : Config} {simulateFailure : Bool}

theorem topology_of_startup {x : Broker × Opening LoggingHandler Consumer}
    (h : c.startup simulateFailure {} = .ok x) : c.topology.topology.validate = .ok () := by
  cases hdeclared : (({} : Broker).declare c.topology.topology).2.1 with
  | error e =>
    simp only [startup, hdeclared] at h
    cases h
  | ok u => exact (Broker.joins_of_declared rfl hdeclared).1

theorem startup_of_declared {b : Broker} (hne : c.topology.successQueue ≠ c.topology.failedQueue)
    (h : (b.declare c.topology.topology).2.1 = .ok ()) :
    c.startup simulateFailure b =
      (startOn (.ofConsumers c.topology c.consumers) (c.registry simulateFailure)
        (b.declare c.topology.topology).1).mapError .dispatch := by
  simp only [startup, h, HandlerRegistry.standard_of_ne hne]
  rfl

theorem mapError_eq_ok_iff {ε ε' α : Type} {f : ε → ε'} {x : Except ε α} {a : α} :
    x.mapError f = .ok a ↔ x = .ok a := by
  cases x <;> simp [Except.mapError]

theorem queues_ne (h : c.topology.topology.validate = .ok ()) :
    c.topology.successQueue ≠ c.topology.failedQueue := by
  intro hqueues
  have hsame : c.topology.workQueue .success = c.topology.workQueue .failed := hqueues
  cases (TopologyNames.workQueue_inj (Topology.sound_of_validate h)).mp hsame

theorem startup_ok_iff (h : c.topology.topology.validate = .ok ())
    {x : Broker × Opening LoggingHandler Consumer} :
    c.startup simulateFailure {} = .ok x ↔
      let declared := (({} : Broker).declare c.topology.topology).1
      ∃ ps, List.Forall₂ (Prepares (.ofConsumers c.topology c.consumers))
          (c.registry simulateFailure).sorted ps ∧
        x = ({ declared with lastConsumer := declared.lastConsumer + ps.length },
          .started (withConsumers declared.lastConsumer ps)) := by
  have hsound := Topology.sound_of_validate h
  obtain ⟨hdeclared, hrealizes⟩ := Broker.declare_of_validate h
  have hreachable : (({} : Broker).declare c.topology.topology).1.reachable = true :=
    Broker.reachable_declare {} c.topology.topology
  have hknown : ∀ q ∈ c.topology.topology.queues,
      ((({} : Broker).declare c.topology.topology).1.queue? q.name).isSome := by
    intro q hq
    rw [← Broker.isSome_spec?, hrealizes.specs, hsound.queue?_of_mem hq]
    rfl
  rw [startup_of_declared (queues_ne h) hdeclared, mapError_eq_ok_iff]
  refine startOn_ok_iff hreachable (fun e he => ?_) (List.cons_ne_nil _ _)
  rcases List.mem_cons.mp he with rfl | he
  · exact hknown _ (.head _)
  · obtain rfl := List.mem_singleton.mp he
    exact hknown _ (.tail _ (.head _))

theorem sorted_registry_perm (c : Config) (simulateFailure : Bool) :
    (c.registry simulateFailure).sorted.Perm (c.registry simulateFailure).entries :=
  List.mergeSort_perm _ _

theorem prepares_iff (h : c.topology.successQueue ≠ c.topology.failedQueue)
    (simulateFailure : Bool) :
    (∃ ps, List.Forall₂ (Prepares (.ofConsumers c.topology c.consumers))
        (c.registry simulateFailure).sorted ps) ↔
      c.consumers.success.retry.Sound ∧ c.consumers.failed.retry.Sound := by
  rw [← RetryConfig.exists_toPolicy?_iff, ← RetryConfig.exists_toPolicy?_iff]
  have hsorted := sorted_registry_perm c simulateFailure
  obtain ⟨hsuccess, hfailed⟩ := DispatcherConfig.queue_ofConsumers h c.consumers
  constructor
  · rintro ⟨ps, hps⟩
    obtain ⟨ps', hprepares, -⟩ := List.perm_comp_forall₂ hsorted.symm hps
    obtain ⟨_, _, ⟨p, hp, -⟩, hrest, rfl⟩ := List.forall₂_cons_left_iff.mp hprepares
    obtain ⟨_, _, ⟨p', hp', -⟩, -, rfl⟩ := List.forall₂_cons_left_iff.mp hrest
    rw [hsuccess] at hp
    rw [hfailed] at hp'
    exact ⟨⟨p, hp⟩, p', hp'⟩
  · rintro ⟨⟨p, hp⟩, p', hp'⟩
    rw [← hsuccess] at hp
    rw [← hfailed] at hp'
    have hprepares : List.Forall₂ (Prepares (.ofConsumers c.topology c.consumers))
        (c.registry simulateFailure).entries _ := .cons ⟨p, hp, rfl⟩ (.cons ⟨p', hp', rfl⟩ .nil)
    obtain ⟨ps, hps, -⟩ := List.perm_comp_forall₂ hsorted hprepares
    exact ⟨ps, hps⟩

structure StartsAsValidated (c : Config) (simulateFailure : Bool) : Prop where
  accepts : c.validate = .ok () ↔ c.topology.topology.validate = .ok () ∧
    c.consumers.success.retry.Sound ∧ c.consumers.failed.retry.Sound ∧ 1 ≤ c.publisher.maxAttempts
  agrees : c.validate = .ok () ↔ 1 ≤ c.publisher.maxAttempts ∧
    ∃ b ws, c.startup simulateFailure {} = .ok (b, .started ws)
  comes : ∀ x, c.startup simulateFailure {} = .ok x → ∃ b ws, x = (b, .started ws)
  workers : ∀ b ws, c.startup simulateFailure {} = .ok (b, .started ws) → ∃ w w',
    ws.Perm [w, w'] ∧
      Serves c.topology.successQueue ⟨.success, simulateFailure⟩ c.consumers.success w ∧
      Serves c.topology.failedQueue ⟨.failed, simulateFailure⟩ c.consumers.failed w'

theorem starts_iff (h : c.topology.topology.validate = .ok ()) :
    (∃ b ws, c.startup simulateFailure {} = .ok (b, .started ws)) ↔
      c.consumers.success.retry.Sound ∧ c.consumers.failed.retry.Sound := by
  rw [← prepares_iff (queues_ne h) simulateFailure]
  constructor
  · rintro ⟨b, ws, hstarted⟩
    obtain ⟨ps, hprepares, -⟩ := (startup_ok_iff h).mp hstarted
    exact ⟨ps, hprepares⟩
  · rintro ⟨ps, hprepares⟩
    exact ⟨_, _, (startup_ok_iff h).mpr ⟨ps, hprepares, rfl⟩⟩

theorem workers_of_started {b : Broker} {ws : List (Prepared LoggingHandler × Consumer)}
    (h : c.startup simulateFailure {} = .ok (b, .started ws)) : ∃ w w', ws.Perm [w, w'] ∧
      Serves c.topology.successQueue ⟨.success, simulateFailure⟩ c.consumers.success w ∧
      Serves c.topology.failedQueue ⟨.failed, simulateFailure⟩ c.consumers.failed w' := by
  have hvalid := topology_of_startup h
  obtain ⟨hsuccess, hfailed⟩ := DispatcherConfig.queue_ofConsumers (queues_ne hvalid) c.consumers
  obtain ⟨ps, hprepares, hx⟩ := (startup_ok_iff hvalid).mp h
  obtain rfl := Opening.started.inj (Prod.mk.inj hx).2
  have hserves := serves_withConsumers hprepares
    (({} : Broker).declare c.topology.topology).1.lastConsumer
  -- workers start in the order of the names, whichever of the two comes first
  obtain ⟨ws', hws, hperm⟩ :=
    List.perm_comp_forall₂ (sorted_registry_perm c simulateFailure).symm hserves
  obtain ⟨w, _, hw, hrest, rfl⟩ := List.forall₂_cons_left_iff.mp hws
  obtain ⟨w', _, hw', hnil, rfl⟩ := List.forall₂_cons_left_iff.mp hrest
  obtain rfl := List.forall₂_nil_left_iff.mp hnil
  rw [hsuccess] at hw
  rw [hfailed] at hw'
  exact ⟨w, w', hperm.symm, hw, hw'⟩

/-- A configuration is valid if the publisher may try once and all of the start goes through. -/
theorem starts_as_validated (c : Config) (simulateFailure : Bool) :
    c.StartsAsValidated simulateFailure where
  accepts := validate_ok_iff
  agrees := by
    rw [validate_ok_iff]
    constructor
    · rintro ⟨hvalid, hsuccess, hfailed, hattempts⟩
      exact ⟨hattempts, (starts_iff hvalid).mpr ⟨hsuccess, hfailed⟩⟩
    · rintro ⟨hattempts, b, ws, hstarted⟩
      have hvalid := topology_of_startup hstarted
      obtain ⟨hsuccess, hfailed⟩ := (starts_iff hvalid).mp ⟨b, ws, hstarted⟩
      exact ⟨hvalid, hsuccess, hfailed, hattempts⟩
  comes x h := by
    obtain ⟨ps, -, hx⟩ := (startup_ok_iff (topology_of_startup h)).mp h
    exact ⟨_, _, hx⟩
  workers _ _ := workers_of_started

end Config
end OutcomeRelay
