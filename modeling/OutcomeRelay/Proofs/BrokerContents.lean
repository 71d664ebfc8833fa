import Mathlib.Data.List.Basic
import OutcomeRelay.Broker.Basic

/-!
What is in the queues of a broker, queue by queue: the messages that wait and those that are held.
Each operation is described by what it does to these, and a queue that is not declared has none.
-/

namespace OutcomeRelay.Broker

def heldMessages (b : Broker) (queue : String) : List HeldMessage :=
  ((b.queue? queue).map Queue.held).getD []

def spec? (b : Broker) (queue : String) : Option QueueSpec :=
  (b.queue? queue).map Queue.spec

def messages (b : Broker) (queue : String) : List StoredMessage :=
  b.readyMessages queue ++ (b.heldMessages queue).map HeldMessage.message

def copies (b : Broker) (queue : String) : List Nat :=
  (b.messages queue).map StoredMessage.copy

section Views

variable {b b' : Broker} {n : String} {q : Queue}

theorem readyMessages_of_some (h : b.queue? n = some q) : b.readyMessages n = q.ready := by
  rw [readyMessages, h]
  rfl

theorem heldMessages_of_some (h : b.queue? n = some q) : b.heldMessages n = q.held := by
  rw [heldMessages, h]
  rfl

theorem isSome_spec? (b : Broker) (n : String) : (b.spec? n).isSome = (b.queue? n).isSome :=
  Option.isSome_map

theorem readyMessages_congr (h : b'.queue? n = b.queue? n) :
    b'.readyMessages n = b.readyMessages n := by
  rw [readyMessages, h, readyMessages]

theorem heldMessages_congr (h : b'.queue? n = b.queue? n) :
    b'.heldMessages n = b.heldMessages n := by
  rw [heldMessages, h, heldMessages]

theorem spec?_congr (h : b'.queue? n = b.queue? n) : b'.spec? n = b.spec? n := by
  rw [spec?, h, spec?]

theorem queue?_modifyQueue (b : Broker) (m : String) {f : Queue → Queue}
    (hf : ∀ q, (f q).spec = q.spec) (n : String) :
    (b.modifyQueue m f).queue? n = if n = m then (b.queue? n).map f else b.queue? n := by
  have hname : ((fun q : Queue => q.spec.name == n) ∘
      fun q : Queue => if q.spec.name == m then f q else q) = fun q => q.spec.name == n := by
    funext q
    simp only [Function.comp_apply]
    split
    · rw [hf]
    · rfl
  simp only [queue?, modifyQueue, List.find?_map, hname]
  cases h : b.queues.find? fun q => q.spec.name == n with
  | none => simp
  | some q =>
    have hq : q.spec.name = n := by simpa using List.find?_some h
    simp only [Option.map_some, hq, beq_iff_eq]
    split <;> rfl

theorem queue?_modifyQueue_of_some {m : String} {f : Queue → Queue} (h : b.queue? m = some q)
    (hf : ∀ q, (f q).spec = q.spec) (n : String) :
    (b.modifyQueue m f).queue? n = if n = m then some (f q) else b.queue? n := by
  rw [queue?_modifyQueue b m hf]
  split
  · next hn => rw [hn, h, Option.map_some]
  · rfl

theorem readyMessages_modifyQueue {m : String} {f : Queue → Queue} (h : b.queue? m = some q)
    (hf : ∀ q, (f q).spec = q.spec) (n : String) :
    (b.modifyQueue m f).readyMessages n = if n = m then (f q).ready else b.readyMessages n := by
  have hqueue := queue?_modifyQueue_of_some h hf n
  split at hqueue
  · next hn => rw [if_pos hn, readyMessages_of_some hqueue]
  · next hn => rw [if_neg hn, readyMessages_congr hqueue]

theorem heldMessages_modifyQueue {m : String} {f : Queue → Queue} (h : b.queue? m = some q)
    (hf : ∀ q, (f q).spec = q.spec) (n : String) :
    (b.modifyQueue m f).heldMessages n = if n = m then (f q).held else b.heldMessages n := by
  have hqueue := queue?_modifyQueue_of_some h hf n
  split at hqueue
  · next hn => rw [if_pos hn, heldMessages_of_some hqueue]
  · next hn => rw [if_neg hn, heldMessages_congr hqueue]

theorem spec?_modifyQueue (b : Broker) (m : String) {f : Queue → Queue}
    (hf : ∀ q, (f q).spec = q.spec) (n : String) : (b.modifyQueue m f).spec? n = b.spec? n := by
  rw [spec?, queue?_modifyQueue b m hf, spec?]
  split
  · rw [Option.map_map]
    congr 1
    funext q
    exact hf q
  · rfl

end Views

structure SameGraph (b b' : Broker) : Prop where
  exchanges : b'.exchanges = b.exchanges
  bindings : b'.bindings = b.bindings
  specs : ∀ n, b'.spec? n = b.spec? n

namespace SameGraph

variable {b b' b'' : Broker}

theorem refl (b : Broker) : SameGraph b b :=
  ⟨rfl, rfl, fun _ => rfl⟩

theorem trans (h : SameGraph b b') (h' : SameGraph b' b'') : SameGraph b b'' :=
  ⟨h'.exchanges.trans h.exchanges, h'.bindings.trans h.bindings,
    fun n => (h'.specs n).trans (h.specs n)⟩

theorem symm (h : SameGraph b b') : SameGraph b' b :=
  ⟨h.exchanges.symm, h.bindings.symm, fun n => (h.specs n).symm⟩

theorem modifyQueue (b : Broker) (m : String) {f : Queue → Queue} (hf : ∀ q, (f q).spec = q.spec) :
    SameGraph b (b.modifyQueue m f) :=
  ⟨rfl, rfl, spec?_modifyQueue b m hf⟩

end SameGraph

structure Extends (b b' : Broker) : Prop where
  exchanges : ∀ n e, b.exchange? n = some e → b'.exchange? n = some e
  specs : ∀ n s, b.spec? n = some s → b'.spec? n = some s
  bindings : ∀ r ∈ b.bindings, r ∈ b'.bindings
  nodup : b.bindings.Nodup → b'.bindings.Nodup

namespace Extends

variable {b b' b'' : Broker}

theorem refl (b : Broker) : Extends b b :=
  ⟨fun _ _ h => h, fun _ _ h => h, fun _ h => h, fun h => h⟩

theorem trans (h : Extends b b') (h' : Extends b' b'') : Extends b b'' :=
  ⟨fun n e he => h'.exchanges n e (h.exchanges n e he), fun n s hs => h'.specs n s (h.specs n s hs),
    fun r hr => h'.bindings r (h.bindings r hr), fun hb => h'.nodup (h.nodup hb)⟩

end Extends

theorem SameGraph.extends {b b' : Broker} (h : SameGraph b b') : Extends b b' where
  exchanges n e he := by rwa [exchange?, h.exchanges]
  specs n s hs := (h.specs n).trans hs
  bindings r hr := h.bindings ▸ hr
  nodup hb := h.bindings ▸ hb

structure SameMessages (b b' : Broker) : Prop where
  ready : ∀ n, b'.readyMessages n = b.readyMessages n
  held : ∀ n, b'.heldMessages n = b.heldMessages n

namespace SameMessages

variable {b b' : Broker}

theorem of_queues (h : ∀ n, b'.queue? n = b.queue? n) : SameMessages b b' :=
  ⟨fun n => readyMessages_congr (h n), fun n => heldMessages_congr (h n)⟩

theorem refl (b : Broker) : SameMessages b b :=
  of_queues fun _ => rfl

end SameMessages

/-- Messages that were put into queues: `new` are those of each queue, in order, and all are `m`
but for the number of the copy. The queues are the known ones of `targets`, each as often as it is
there. -/
structure Posted (m : StoredMessage) (targets : List String) (b b' : Broker)
    (new : String → List StoredMessage) : Prop where
  graph : SameGraph b b'
  ready : ∀ n, b'.readyMessages n = b.readyMessages n ++ new n
  held : ∀ n, b'.heldMessages n = b.heldMessages n
  lastTag : b'.lastTag = b.lastTag
  lastConsumer : b'.lastConsumer = b.lastConsumer
  lastCopy : b.lastCopy ≤ b'.lastCopy
  alike : ∀ n, ∀ x ∈ new n, x = { m with copy := x.copy }
  fresh : ∀ n, ∀ x ∈ new n, b.lastCopy < x.copy ∧ x.copy ≤ b'.lastCopy
  ascending : ∀ n, (new n).Pairwise fun x y => x.copy < y.copy
  apart : ∀ n n', ∀ x ∈ new n, ∀ y ∈ new n', x.copy = y.copy → n = n'
  count : ∀ n, (new n).length = targets.count n

namespace Posted

variable {b b' : Broker} {m : StoredMessage}

theorem none (m : StoredMessage) (b : Broker) : Posted m [] b b fun _ => [] where
  graph := .refl b
  ready n := (List.append_nil _).symm
  held _ := rfl
  lastTag := rfl
  lastConsumer := rfl
  lastCopy := Nat.le_refl _
  alike := by simp
  fresh := by simp
  ascending := by simp
  apart := by simp
  count := by simp

end Posted

theorem posted_enqueue {b : Broker} (m : StoredMessage) {queue : String}
    (known : (b.queue? queue).isSome) :
    Posted m [queue] b (b.enqueue m queue) fun n =>
      if n = queue then [{ m with copy := b.lastCopy + 1 }] else [] := by
  obtain ⟨q, hq⟩ := Option.isSome_iff_exists.mp known
  have hspec : ∀ q : Queue, ({ q with
      ready := q.ready ++ [{ m with copy := b.lastCopy + 1 }] }.notify).spec = q.spec :=
    fun _ => rfl
  have hqueue : ({ b with lastCopy := b.lastCopy + 1 } : Broker).queue? queue = some q := hq
  refine ⟨⟨rfl, rfl, spec?_modifyQueue _ _ hspec⟩, fun n => ?_, fun n => ?_, rfl, rfl,
    Nat.le_succ _, ?_, ?_, ?_, ?_, fun n => ?_⟩
  · rw [enqueue, readyMessages_modifyQueue hqueue hspec]
    split
    · next hn => rw [hn, readyMessages_of_some hq]; rfl
    · rw [List.append_nil]; rfl
  · rw [enqueue, heldMessages_modifyQueue hqueue hspec]
    split
    · next hn => rw [hn, heldMessages_of_some hq]; rfl
    · rfl
  · intro n x hx
    split at hx <;> simp_all
  · intro n x hx
    split at hx
    · rw [List.mem_singleton] at hx
      rw [hx]
      exact ⟨Nat.lt_succ_self _, Nat.le_refl _⟩
    · simp at hx
  · intro n
    split <;> simp
  · intro n n' x hx y hy _
    split at hx <;> split at hy <;> simp_all
  · by_cases hn : n = queue
    · simp [hn]
    · simp [hn, Ne.symm hn]

theorem Posted.trans {b b' b'' : Broker} {m : StoredMessage} {ts ts' : List String}
    {new new' : String → List StoredMessage} (h : Posted m ts b b' new)
    (h' : Posted m ts' b' b'' new') : Posted m (ts ++ ts') b b'' fun n => new n ++ new' n where
  graph := h.graph.trans h'.graph
  ready n := by rw [h'.ready, h.ready, List.append_assoc]
  held n := (h'.held n).trans (h.held n)
  lastTag := h'.lastTag.trans h.lastTag
  lastConsumer := h'.lastConsumer.trans h.lastConsumer
  lastCopy := Nat.le_trans h.lastCopy h'.lastCopy
  alike n x hx := (List.mem_append.mp hx).elim (h.alike n x) (h'.alike n x)
  fresh n x hx := by
    rcases List.mem_append.mp hx with hx | hx
    · exact ⟨(h.fresh n x hx).1, Nat.le_trans (h.fresh n x hx).2 h'.lastCopy⟩
    · exact ⟨Nat.lt_of_le_of_lt h.lastCopy (h'.fresh n x hx).1, (h'.fresh n x hx).2⟩
  ascending n := by
    refine List.pairwise_append.mpr ⟨h.ascending n, h'.ascending n, fun x hx y hy => ?_⟩
    exact Nat.lt_of_le_of_lt (h.fresh n x hx).2 (h'.fresh n y hy).1
  apart n n' x hx y hy hxy := by
    rcases List.mem_append.mp hx with hx | hx <;> rcases List.mem_append.mp hy with hy | hy
    · exact h.apart n n' x hx y hy hxy
    · have := (h.fresh n x hx).2
      have := (h'.fresh n' y hy).1
      omega
    · have := (h'.fresh n x hx).1
      have := (h.fresh n' y hy).2
      omega
    · exact h'.apart n n' x hx y hy hxy
  count n := by rw [List.length_append, h.count, h'.count, List.count_append]

theorem Posted.isSome {b b' : Broker} {m : StoredMessage} {ts : List String}
    {new : String → List StoredMessage} (h : Posted m ts b b' new) (n : String) :
    (b'.queue? n).isSome = (b.queue? n).isSome := by
  rw [← isSome_spec?, h.graph.specs, isSome_spec?]

theorem posted_enqueueAll {b : Broker} (m : StoredMessage) {queues : List String}
    (known : ∀ q ∈ queues, (b.queue? q).isSome) :
    ∃ new, Posted m queues b (b.enqueueAll m queues) new := by
  induction queues generalizing b with
  | nil => exact ⟨_, .none m b⟩
  | cons q qs ih =>
    have hq := posted_enqueue m (known q (List.mem_cons_self ..))
    obtain ⟨new, hnew⟩ := ih (b := b.enqueue m q) fun r hr => by
      rw [hq.isSome]
      exact known r (List.mem_cons_of_mem _ hr)
    exact ⟨_, hq.trans hnew⟩

def knownTargets (b : Broker) (exchange routingKey : String) : List String :=
  ((b.targets exchange routingKey).getD []).filter fun q => (b.queue? q).isSome

theorem posted_route (b : Broker) (m : StoredMessage) :
    ∃ new, Posted m (b.knownTargets m.exchange m.routingKey) b (b.route m).1 new := by
  unfold route knownTargets
  cases b.targets m.exchange m.routingKey with
  | none => exact ⟨_, .none m b⟩
  | some queues => exact posted_enqueueAll m fun q hq => (List.mem_filter.mp hq).2

end OutcomeRelay.Broker
