import OutcomeRelay.Proofs.BusEffect

/-!
Declaring entities one after another, on a broker that may have some of them. An entity that is
there as it is written changes nothing, one that is there otherwise is refused, and any other is
added. A list of entities comes as far as the first that is refused.
-/

namespace OutcomeRelay.Broker

open OutcomeRelay.Topology

def Includes (b : Broker) : Entity → Prop
  | .exchange e => b.exchange? e.name = some e
  | .queue q => b.spec? q.name = some q
  | .binding r => r ∈ b.bindings

def Refuses (b : Broker) : Entity → Prop
  | .exchange e => ∃ old, b.exchange? e.name = some old ∧
      ¬(old.kind = e.kind ∧ old.durable = e.durable)
  | .queue q => ∃ old, b.spec? q.name = some old ∧
      ¬(old.durable = q.durable ∧ old.deadLetter = q.deadLetter)
  | .binding r => b.exchange? r.exchange = none ∨ b.spec? r.queue = none

def Joins (b : Broker) (es : List Entity) (b' : Broker) : Prop :=
  ∀ x, b'.Includes x ↔ b.Includes x ∨ x ∈ es

variable {b b' b'' : Broker} {es es' : List Entity}

theorem Joins.refl (b : Broker) : Joins b [] b :=
  fun _ => by simp

theorem Joins.of_includes {e : Entity} (h : b.Includes e) : Joins b [e] b := by
  intro x
  rw [List.mem_singleton]
  constructor
  · exact .inl
  · rintro (hx | rfl)
    · exact hx
    · exact h

theorem Joins.trans (h : Joins b es b') (h' : Joins b' es' b'') : Joins b (es ++ es') b'' := by
  intro x
  rw [h' x, h x, List.mem_append, or_assoc]

theorem name_of_exchange? {n : String} {e : ExchangeSpec} (h : b.exchange? n = some e) :
    e.name = n := by
  simpa using List.find?_some h

theorem name_of_spec? {n : String} {s : QueueSpec} (h : b.spec? n = some s) : s.name = n := by
  obtain ⟨q, hq, rfl⟩ := Option.map_eq_some_iff.mp h
  simpa using List.find?_some hq

theorem exchange?_eq_some_iff {n : String} {e : ExchangeSpec} :
    b.exchange? n = some e ↔ e.name = n ∧ b.Includes (.exchange e) := by
  constructor
  · intro h
    obtain rfl := name_of_exchange? h
    exact ⟨rfl, h⟩
  · rintro ⟨rfl, h⟩
    exact h

theorem spec?_eq_some_iff {n : String} {s : QueueSpec} :
    b.spec? n = some s ↔ s.name = n ∧ b.Includes (.queue s) := by
  constructor
  · intro h
    obtain rfl := name_of_spec? h
    exact ⟨rfl, h⟩
  · rintro ⟨rfl, h⟩
    exact h

theorem Extends.includes (h : Extends b b') {e : Entity} (he : b.Includes e) : b'.Includes e := by
  cases e with
  | exchange e => exact h.exchanges _ _ he
  | queue q => exact h.specs _ _ he
  | binding r => exact h.bindings r he

theorem lookup_append_iff {α : Type} {name : α → String} {look look' : String → Option α} {e : α}
    (new : look (name e) = none)
    (append : ∀ n, look' n = (look n).or (if name e = n then some e else none)) (x : α) :
    look' (name x) = some x ↔ look (name x) = some x ∨ x = e := by
  rw [append]
  cases hold : look (name x) with
  | some y =>
    have hne : x ≠ e := by
      rintro rfl
      cases new.symm.trans hold
    simp [hne]
  | none =>
    rw [Option.none_or]
    constructor
    · intro hx
      split at hx
      · exact .inr (Option.some.inj hx).symm
      · cases hx
    · rintro (hx | rfl)
      · cases hx
      · exact if_pos rfl

theorem joins_append_exchange {e : ExchangeSpec} (h : b.exchange? e.name = none) :
    Joins b [.exchange e] { b with exchanges := b.exchanges ++ [e] } := by
  intro x
  cases x with
  | exchange x =>
    rw [Includes, Includes, List.mem_singleton, Entity.exchange.injEq]
    refine lookup_append_iff h (fun n => ?_) x
    rw [exchange?, List.find?_append, List.find?_singleton]
    simp [exchange?]
  | queue q => simp [Includes, spec?, queue?]
  | binding r => simp [Includes]

theorem joins_append_queue {q : QueueSpec} (h : b.spec? q.name = none) :
    Joins b [.queue q] { b with queues := b.queues ++ [{ spec := q }] } := by
  intro x
  cases x with
  | exchange e => simp [Includes, exchange?]
  | queue x =>
    rw [Includes, Includes, List.mem_singleton, Entity.queue.injEq]
    refine lookup_append_iff h (fun n => ?_) x
    rw [spec?, queue?, List.find?_append, List.find?_singleton, Option.map_or]
    congr 1
    simp only [beq_iff_eq]
    split <;> rfl
  | binding r => simp [Includes]

theorem joins_append_binding (b : Broker) (r : Binding) :
    Joins b [.binding r] { b with bindings := b.bindings ++ [r] } := by
  intro x
  cases x with
  | exchange e => simp [Includes, exchange?]
  | queue q => simp [Includes, spec?, queue?]
  | binding x => simp [Includes]

theorem declareExchange_cases (reachable : b.reachable = true) (e : ExchangeSpec) :
    (b.Refuses (.exchange e) ∧ ∃ err, b.declareExchange e = (b, .error err)) ∨
    ∃ b', b.declareExchange e = (b', .ok ()) ∧ Joins b [.exchange e] b' ∧ b'.reachable = true := by
  unfold declareExchange whenReachable
  rw [if_pos reachable]
  split
  · next hnone => exact .inr ⟨_, rfl, joins_append_exchange hnone, reachable⟩
  · next old hold =>
    split
    · next hkind => exact .inl ⟨⟨old, hold, fun h => hkind h.1⟩, _, rfl⟩
    split
    · next hdurable => exact .inl ⟨⟨old, hold, fun h => hdurable h.2⟩, _, rfl⟩
    · next hkind hdurable =>
      rw [Decidable.not_not] at hkind hdurable
      have hsame : old = e := by
        have hname := name_of_exchange? hold
        cases old
        cases e
        simp_all
      exact .inr ⟨b, rfl, .of_includes (hsame ▸ (exchange?_eq_some_iff.mp hold).2), reachable⟩

theorem declareQueue_cases (reachable : b.reachable = true) (q : QueueSpec) :
    (b.Refuses (.queue q) ∧ ∃ err, b.declareQueue q = (b, .error err)) ∨
    ∃ b', b.declareQueue q = (b', .ok ()) ∧ Joins b [.queue q] b' ∧ b'.reachable = true := by
  unfold declareQueue whenReachable
  rw [if_pos reachable]
  split
  · next hnone =>
    exact .inr ⟨_, rfl, joins_append_queue (by rw [spec?, hnone]; rfl), reachable⟩
  · next old hold =>
    have hspec : b.spec? q.name = some old.spec := by rw [spec?, hold]; rfl
    split
    · next hdurable => exact .inl ⟨⟨_, hspec, fun h => hdurable h.1⟩, _, rfl⟩
    split
    · next hdead => exact .inl ⟨⟨_, hspec, fun h => hdead h.2⟩, _, rfl⟩
    · next hdurable hdead =>
      rw [Decidable.not_not] at hdurable hdead
      have hsame : old.spec = q := by
        have hname := name_of_spec? hspec
        cases hs : old.spec
        cases q
        simp_all
      exact .inr ⟨b, rfl, .of_includes (hsame ▸ (spec?_eq_some_iff.mp hspec).2), reachable⟩

theorem bind_cases (reachable : b.reachable = true) (r : Binding) :
    (b.Refuses (.binding r) ∧ ∃ err, b.bind r = (b, .error err)) ∨
    ∃ b', b.bind r = (b', .ok ()) ∧ Joins b [.binding r] b' ∧ b'.reachable = true := by
  unfold Broker.bind whenReachable
  rw [if_pos reachable]
  split
  · next hexchange => exact .inl ⟨.inl (Option.isNone_iff_eq_none.mp hexchange), _, rfl⟩
  split
  · next hqueue =>
    have hspec : b.spec? r.queue = none := by rw [spec?, Option.isNone_iff_eq_none.mp hqueue]; rfl
    exact .inl ⟨.inr hspec, _, rfl⟩
  split
  · next hmem => exact .inr ⟨b, rfl, .of_includes hmem, reachable⟩
  · exact .inr ⟨_, rfl, joins_append_binding b r, reachable⟩

theorem declareEntity_cases (reachable : b.reachable = true) (e : Entity) :
    (b.Refuses e ∧ ∃ err, b.declareEntity e = (b, .error err)) ∨
    ∃ b', b.declareEntity e = (b', .ok ()) ∧ Joins b [e] b' ∧ b'.reachable = true := by
  cases e with
  | exchange e => exact declareExchange_cases reachable e
  | queue q => exact declareQueue_cases reachable q
  | binding r => exact bind_cases reachable r

def declared (b : Broker) (es : List Entity) : Broker × Except BusError Unit :=
  let done := declareEach declareEntity b es
  (done.1, done.2.1)

theorem declared_cons {e : Entity} (h : b.declareEntity e = (b', .ok ())) (es : List Entity) :
    b.declared (e :: es) = b'.declared es := by
  unfold declared
  rw [declareEach, h]

theorem declared_of_refused {e : Entity} {err : BusError} (h : b.declareEntity e = (b, .error err))
    (es : List Entity) : b.declared (e :: es) = (b, .error err) := by
  unfold declared
  rw [declareEach, h]

inductive Comes (b : Broker) (es : List Entity) : Broker × Except BusError Unit → Prop where
  | through {b' : Broker} (joins : Joins b es b') : Comes b es (b', .ok ())
  | upTo {b' : Broker} {done rest : List Entity} {e : Entity} {err : BusError}
      (split : es = done ++ e :: rest) (joins : Joins b done b') (refuses : b'.Refuses e) :
      Comes b es (b', .error err)

theorem comes_declared (reachable : b.reachable = true) (es : List Entity) :
    Comes b es (b.declared es) := by
  induction es generalizing b with
  | nil => exact .through (.refl b)
  | cons e es ih =>
    rcases declareEntity_cases reachable e with ⟨hrefuses, err, herr⟩ | ⟨b', hone, hjoins, hb'⟩
    · rw [declared_of_refused herr]
      exact .upTo (List.nil_append _).symm (.refl b) hrefuses
    · rw [declared_cons hone]
      generalize hrest : b'.declared es = result
      cases hrest ▸ ih hb' with
      | through hall => exact .through (hjoins.trans hall)
      | upTo hsplit hdone hrefuses =>
        exact .upTo (by rw [hsplit]; rfl) (hjoins.trans hdone) hrefuses

theorem declared_of_includes (reachable : b.reachable = true) (h : ∀ e ∈ es, b.Includes e)
    (ends : ∀ r, .binding r ∈ es → (b.exchange? r.exchange).isSome ∧ (b.spec? r.queue).isSome) :
    b.declared es = (b, .ok ()) := by
  induction es with
  | nil => rfl
  | cons e es ih =>
    have hone : b.declareEntity e = (b, .ok ()) := by
      have hhere := h e (.head _)
      cases e with
      | exchange e =>
        have hsome : b.exchange? e.name = some e := hhere
        simp [declareEntity, declareExchange, whenReachable, reachable, hsome]
      | queue q =>
        obtain ⟨old, hold, rfl⟩ := Option.map_eq_some_iff.mp hhere
        simp [declareEntity, declareQueue, whenReachable, reachable, hold]
      | binding r =>
        obtain ⟨hexchange, hqueue⟩ := ends r (.head _)
        rw [isSome_spec?] at hqueue
        have hmem : r ∈ b.bindings := hhere
        simp [declareEntity, Broker.bind, whenReachable, reachable,
          Option.isSome_iff_ne_none.mp hexchange, Option.isSome_iff_ne_none.mp hqueue, hmem]
    rw [declared_cons hone]
    exact ih (fun e he => h e (.tail _ he)) fun r hr => ends r (.tail _ hr)

end OutcomeRelay.Broker
