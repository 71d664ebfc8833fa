import OutcomeRelay.Config.Basic
import OutcomeRelay.Proofs.ConsumerStreams
import OutcomeRelay.Proofs.OutletContents
import OutcomeRelay.Proofs.RoutedCopies

/-!
What a valid configuration says of the ways of outcomes. Its topology can be declared, and its work
queues are different queues. Its routing keys may be empty, be the same, or be patterns that take
each other: an outcome without a key is refused, and any other comes to each work queue whose key
takes its own.
-/

namespace OutcomeRelay

open Publisher

theorem Pattern.matches_self (ws : List Word) : Matches ws ws := by
  induction ws with
  | nil => exact .nil
  | cons w ws ih => exact .word w ih

theorem ExchangeKind.takes_self (kind : ExchangeKind) (key : String) : kind.Takes key key := by
  cases kind with
  | topic => exact Pattern.matches_self _
  | direct => rfl

theorem Config.validate_topology {c : Config} (h : c.validate = .ok ()) :
    c.topology.topology.validate = .ok () := by
  unfold validate at h
  split at h
  · cases h
  · next hnone =>
    have htopology := (Option.or_eq_none_iff.mp hnone).1
    rw [Option.map_eq_none_iff] at htopology
    rw [Topology.validate, htopology]

namespace TopologyNames

def Reaches (n : TopologyNames) (s s' : PaymentStatus) : Prop :=
  ExchangeKind.topic.Takes (n.routes.target s').routingKey (n.routes.target s).routingKey

instance (n : TopologyNames) (s s' : PaymentStatus) : Decidable (n.Reaches s s') :=
  inferInstanceAs (Decidable (ExchangeKind.Takes _ _ _))

theorem reaches_self (n : TopologyNames) (s : PaymentStatus) : n.Reaches s s :=
  ExchangeKind.takes_self _ _

end TopologyNames

namespace Broker

variable {b : Broker} {n : TopologyNames}

theorem Realizes.bound {t : Topology} (hb : b.Realizes t) (ht : t.Sound) : b.Bound where
  exchanges r hr := by
    rw [hb.exchanges]
    exact (ht.bindings r ((hb.bindings r).mp hr)).1
  queues r hr := by
    rw [← isSome_spec?, hb.specs]
    exact (ht.bindings r ((hb.bindings r).mp hr)).2
  nodup := hb.nodup

theorem Realizes.mem_leading (hb : b.Realizes n.topology) (ht : n.topology.Sound)
    (s : PaymentStatus) {r : Binding} :
    r ∈ b.leading n.exchange (n.routes.target s).routingKey ↔
      ∃ s', r = n.routeBinding s' ∧ n.Reaches s s' := by
  have hexchange : b.exchange? n.exchange = some ⟨n.exchange, .topic, true⟩ :=
    (hb.exchanges _).trans (ht.exchange?_of_mem (.head _))
  rw [Broker.mem_leading, hb.bindings, Leads, hexchange, n.mem_bindings]
  constructor
  · rintro ⟨⟨s', rfl | rfl⟩, hhere, e, he, htakes⟩
    · obtain rfl := Option.some.inj he
      exact ⟨s', rfl, htakes⟩
    · exact absurd hhere.symm (TopologyNames.exchanges_ne ht)
  · rintro ⟨s', rfl, hreaches⟩
    exact ⟨⟨s', .inl rfl⟩, rfl, _, rfl, hreaches⟩

theorem Realizes.count_workQueue (hb : b.Realizes n.topology) (ht : n.topology.Sound)
    (s s' : PaymentStatus) :
    (b.knownTargets n.exchange (n.routes.target s).routingKey).count (n.workQueue s') =
      if n.Reaches s s' then 1 else 0 := by
  rw [(hb.bound ht).count_knownTargets]
  have hnodup : ((b.leading n.exchange (n.routes.target s).routingKey).filter
      fun r => r.queue = n.workQueue s').Nodup := (hb.nodup.filter _).filter _
  have hmem : ∀ r, r ∈ (b.leading n.exchange (n.routes.target s).routingKey).filter
      (fun r => r.queue = n.workQueue s') ↔ r = n.routeBinding s' ∧ n.Reaches s s' := by
    intro r
    rw [List.mem_filter, hb.mem_leading ht, decide_eq_true_eq]
    constructor
    · rintro ⟨⟨s'', rfl, hreaches⟩, hqueue⟩
      obtain rfl := (TopologyNames.workQueue_inj ht).mp hqueue
      exact ⟨rfl, hreaches⟩
    · rintro ⟨rfl, hreaches⟩
      exact ⟨⟨s', rfl, hreaches⟩, rfl⟩
  by_cases hreaches : n.Reaches s s'
  · have hone : _ = [n.routeBinding s'] := List.perm_singleton.mp
      ((List.perm_ext_iff_of_nodup hnodup (List.nodup_singleton _)).mpr fun r => by
        rw [hmem, List.mem_singleton, and_iff_left hreaches])
    rw [hone, if_pos hreaches, List.length_singleton]
  · have hnone : _ = [] := List.eq_nil_iff_forall_not_mem.mpr fun r hr =>
      hreaches ((hmem r).mp hr).2
    rw [hnone, if_neg hreaches, List.length_nil]

theorem Realizes.count_of_ne (hb : b.Realizes n.topology) (ht : n.topology.Sound)
    (s : PaymentStatus) {queue : String} (hne : ∀ s', queue ≠ n.workQueue s') :
    (b.knownTargets n.exchange (n.routes.target s).routingKey).count queue = 0 := by
  rw [List.count_eq_zero, (hb.bound ht).knownTargets]
  intro hmem
  obtain ⟨r, hr, rfl⟩ := List.mem_map.mp hmem
  obtain ⟨s', rfl, -⟩ := (hb.mem_leading ht s).mp hr
  exact hne s' rfl

def publish (b : Broker) (c : Config) (e : OutcomeEvent) :
    Broker × Option (Except PublishError Receipt) :=
  let t := Call.begin c.publisher (c.topology.routes.target e.paymentStatus) (.event e)
  match t.message with
  | .error _ => (b, t.result?)
  | .ok m => ((b.send m).1,
      (t.step (.transport ((b.send m).2.map fun _ => ()))).bind Call.result?)

theorem publish_of_refused {c : Config} {e : OutcomeEvent} {err : PublishError}
    (h : ofOutcome c.publisher c.topology.routes e = .error err) :
    b.publish c e = (b, some (.error err)) := by
  have hmessage : (Call.begin c.publisher (c.topology.routes.target e.paymentStatus)
      (.event e)).message = .error err := h
  simp only [publish, hmessage, Call.result?]

theorem publish_of_message {c : Config} {e : OutcomeEvent} {m : Outbound}
    (h : ofOutcome c.publisher c.topology.routes e = .ok m) (reachable : b.reachable = true) :
    b.publish c e = ((b.send m).1, some (.ok ⟨m.messageId, targetOf m, 1⟩)) := by
  have hmessage : (Call.begin c.publisher (c.topology.routes.target e.paymentStatus)
      (.event e)).message = .ok m := h
  have hsending : (Call.begin c.publisher (c.topology.routes.target e.paymentStatus)
      (.event e)).sending = .attempt 1 (.after c.publisher 0) := start_eq c.publisher
  obtain ⟨confirm, hconfirm⟩ := send_of_reachable reachable m
  simp only [publish, hmessage, hconfirm, Except.map]
  simp [Call.step, hmessage, hsending, Call.result?, Sending.sent]

end Broker

namespace Config

abbrev key (c : Config) (e : OutcomeEvent) : String :=
  (c.topology.routes.target e.paymentStatus).routingKey

/-- Publishing the event returns well and puts one copy into the work queue of its outcome, and none
into any other queue. -/
structure DeliversOnce (c : Config) (b : Broker) (e : OutcomeEvent) : Prop where
  returned : ∃ r, (b.publish c e).2 = some (.ok r)
  copies : ∀ queue, ((b.publish c e).1.readyMessages queue).length =
    (b.readyMessages queue).length +
      if queue = c.topology.workQueue e.paymentStatus then 1 else 0

structure Publishes (c : Config) (b : Broker) (e : OutcomeEvent) : Prop where
  refused : c.key e = "" → b.publish c e =
    (b, some (.error (.invalidTarget (c.topology.routes.target e.paymentStatus))))
  returned : c.key e ≠ "" → (b.publish c e).2 =
    some (.ok ⟨toString e.id.toNat, c.topology.routes.target e.paymentStatus, 1⟩)
  work : c.key e ≠ "" → ∀ s', ∃ new, (b.publish c e).1.readyMessages (c.topology.workQueue s') =
        b.readyMessages (c.topology.workQueue s') ++ new ∧
      new.length = (if c.topology.Reaches e.paymentStatus s' then 1 else 0) ∧
      ∀ x ∈ new, x = (Publication.event e).stored c.topology x.copy
  others : ∀ queue, (∀ s', queue ≠ c.topology.workQueue s') →
    (b.publish c e).1.readyMessages queue = b.readyMessages queue
  own : c.topology.Reaches e.paymentStatus e.paymentStatus
  once : c.DeliversOnce b e ↔ c.key e ≠ "" ∧
    ∀ s', c.topology.Reaches e.paymentStatus s' → s' = e.paymentStatus

variable {c : Config} {b : Broker} {e : OutcomeEvent}

theorem refused_of_no_key (valid : e.validate = .ok ()) (hkey : c.key e = "") :
    b.publish c e =
      (b, some (.error (.invalidTarget (c.topology.routes.target e.paymentStatus)))) := by
  apply Broker.publish_of_refused
  rw [ofOutcome, ofEvent, valid]
  exact if_pos (.inr hkey)

theorem published_of_key (hc : c.validate = .ok ()) (reachable : b.reachable = true)
    (valid : e.validate = .ok ()) (hkey : c.key e ≠ "") :
    (b.publish c e).2 =
      some (.ok ⟨toString e.id.toNat, c.topology.routes.target e.paymentStatus, 1⟩) ∧
    ∀ queue, ∃ new, (b.publish c e).1.readyMessages queue = b.readyMessages queue ++ new ∧
      new.length = (b.knownTargets c.topology.exchange (c.key e)).count queue ∧
      ∀ x ∈ new, x = (Publication.event e).stored c.topology x.copy := by
  have hexchange := TopologyNames.exchange_ne_empty (validate_topology hc)
  have htarget := c.topology.exchange_target e.paymentStatus
  have hmessage : ofOutcome c.publisher c.topology.routes e = .ok ⟨c.topology.exchange,
      c.key e, e.encode, toString e.id.toNat, contentType, c.publisher.mandatory⟩ := by
    rw [ofOutcome, ofEvent, valid, ← htarget]
    exact if_neg (not_or.mpr ⟨by rwa [htarget], hkey⟩)
  rw [Broker.publish_of_message hmessage reachable]
  refine ⟨by rw [targetOf, ← htarget], fun queue => ?_⟩
  rcases b.send_cases _ with ⟨err, hfailed, -⟩ | ⟨confirm, new, -, hposted⟩
  · obtain ⟨confirm, hconfirm⟩ := Broker.send_of_reachable reachable _
    cases hfailed.symm.trans hconfirm
  · exact ⟨new queue, hposted.ready queue, hposted.count queue, hposted.alike queue⟩

/-- A valid event goes to its own queue alone exactly if it has a key that no other queue takes. -/
theorem deliversOnce_iff (hc : c.validate = .ok ()) (hb : b.Realizes c.topology.topology)
    (reachable : b.reachable = true) (valid : e.validate = .ok ()) :
    c.DeliversOnce b e ↔ c.key e ≠ "" ∧
      ∀ s', c.topology.Reaches e.paymentStatus s' → s' = e.paymentStatus := by
  have ht := Topology.sound_of_validate (validate_topology hc)
  have hcount := hb.count_workQueue ht e.paymentStatus
  by_cases hkey : c.key e = ""
  · refine ⟨fun honce => ?_, fun h => absurd hkey h.1⟩
    obtain ⟨r, hr⟩ := honce.returned
    rw [refused_of_no_key valid hkey] at hr
    cases hr
  obtain ⟨hreturned, hready⟩ := published_of_key hc reachable valid hkey
  have hlength : ∀ queue, ((b.publish c e).1.readyMessages queue).length =
      (b.readyMessages queue).length +
        (b.knownTargets c.topology.exchange (c.key e)).count queue := by
    intro queue
    obtain ⟨new, hnew, hcopies, -⟩ := hready queue
    rw [hnew, List.length_append, hcopies]
  constructor
  · intro honce
    refine ⟨hkey, fun s' hreaches => ?_⟩
    -- the work queue of `s'` gets a copy, and only that of the event has one to get
    have hcopies := honce.copies (c.topology.workQueue s')
    rw [hlength, hcount, if_pos hreaches, Nat.add_left_cancel_iff] at hcopies
    by_contra hne
    rw [if_neg fun heq => hne ((TopologyNames.workQueue_inj ht).mp heq)] at hcopies
    cases hcopies
  · rintro ⟨-, hapart⟩
    refine ⟨⟨_, hreturned⟩, fun queue => ?_⟩
    rw [hlength, Nat.add_left_cancel_iff]
    by_cases hown : queue = c.topology.workQueue e.paymentStatus
    · rw [hown, hcount, if_pos (c.topology.reaches_self _), if_pos rfl]
    · rw [if_neg hown]
      by_cases hwork : ∃ s', queue = c.topology.workQueue s'
      · obtain ⟨s', rfl⟩ := hwork
        rw [hcount, if_neg fun hreaches => hown (hapart s' hreaches ▸ rfl)]
      · exact hb.count_of_ne ht _ fun s' heq => hwork ⟨s', heq⟩

theorem publishes_of_validate (hc : c.validate = .ok ()) (hb : b.Realizes c.topology.topology)
    (reachable : b.reachable = true) (valid : e.validate = .ok ()) : c.Publishes b e := by
  have ht := Topology.sound_of_validate (validate_topology hc)
  have hpublished := published_of_key hc reachable valid
  refine ⟨refused_of_no_key valid, fun hkey => (hpublished hkey).1, fun hkey s' => ?_,
    fun queue hne => ?_, c.topology.reaches_self _, deliversOnce_iff hc hb reachable valid⟩
  · obtain ⟨new, hready, hlength, halike⟩ := (hpublished hkey).2 (c.topology.workQueue s')
    exact ⟨new, hready, hlength.trans (hb.count_workQueue ht _ s'), halike⟩
  · by_cases hkey : c.key e = ""
    · rw [refused_of_no_key valid hkey]
    · obtain ⟨new, hready, hlength, -⟩ := (hpublished hkey).2 queue
      rw [hb.count_of_ne ht _ hne] at hlength
      rw [hready, List.eq_nil_of_length_eq_zero hlength, List.append_nil]

/-- The topology of a valid configuration is declared on a fresh broker, and from then on outcomes
are published as its routing keys say. -/
theorem routes_of_validate (hc : c.validate = .ok ()) :
    (({} : Broker).declare c.topology.topology).2.1 = .ok () ∧
    (({} : Broker).declare c.topology.topology).1.Realizes c.topology.topology ∧
    (({} : Broker).declare c.topology.topology).1.reachable = true ∧
    ∀ b : Broker, b.Realizes c.topology.topology → b.reachable = true →
      ∀ e : OutcomeEvent, e.validate = .ok () → c.Publishes b e := by
  obtain ⟨hdone, hrealizes⟩ := Broker.declare_of_validate (validate_topology hc)
  have hreachable : (({} : Broker).declare c.topology.topology).1.reachable = true :=
    Bus.declare_induction (P := fun b => b.reachable = true)
      (fun b e h => (b.reachable_declareEntity e).trans h) rfl c.topology.topology
  exact ⟨hdone, hrealizes, hreachable,
    fun b hb reachable e => publishes_of_validate hc hb reachable⟩

/-- The key of successful outcomes is a pattern that takes the key of failed ones. -/
def overlapping : Config where
  topology := { successRoutingKey := "order.payment.*" }

def failedPayment : OutcomeEvent where
  id := 7
  orderId := "ORD-7"
  amount := ⟨false, 1, 2, by decide, by decide⟩
  currency := "USD"
  paymentMethod := .paypal
  paymentStatus := .failed
  details := { paypalEmail := some "a@b.c" }
  transactionId := ""
  retryCount := 0
  createdAt := ⟨⟨2025, 1, 1⟩, 0, 0, 0, 0⟩
  updatedAt := ⟨⟨2025, 1, 1⟩, 0, 0, 0, 0⟩

theorem routes_of_overlapping :
    overlapping.validate = .ok () ∧ overlapping.Publishes
        (({} : Broker).declare overlapping.topology.topology).1 failedPayment ∧
      overlapping.topology.Reaches .failed .success := by
  have hvalid : overlapping.validate = .ok () := by decide +kernel
  obtain ⟨-, hrealizes, hreachable, hpublishes⟩ := routes_of_validate hvalid
  exact ⟨hvalid, hpublishes _ hrealizes hreachable failedPayment (by decide +kernel),
    by decide +kernel⟩

/-- An empty routing key is valid, and what is published by it is refused. -/
theorem not_deliversOnce_of_no_key :
    ¬ ∀ c : Config, c.validate = .ok () → ∀ e : OutcomeEvent, e.validate = .ok () →
      c.DeliversOnce (({} : Broker).declare c.topology.topology).1 e := by
  intro h
  have honce := h { topology := { successRoutingKey := "" } } (by decide +kernel)
    { failedPayment with paymentStatus := .success, transactionId := "TXN-7" } (by decide +kernel)
  obtain ⟨r, hr⟩ := honce.returned
  rw [refused_of_no_key (by decide +kernel) rfl] at hr
  cases hr

end Config
end OutcomeRelay
