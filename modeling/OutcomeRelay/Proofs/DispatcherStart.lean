import Mathlib.Data.String.Basic
import OutcomeRelay.Proofs.BusCustody
import OutcomeRelay.Proofs.Startup

/-!
The start of a dispatcher, call by call. It is refused before a broker is called, or it consumes the
queues in the order of their names until one is refused, and then closes every consumer that it
opened. Nothing that is in a queue is touched by it.
-/

namespace OutcomeRelay

namespace HandlerRegistry

variable {α : Type}

def names (r : HandlerRegistry α) : List String :=
  r.entries.map (·.1)

end HandlerRegistry

namespace Dispatcher

variable {α γ σ : Type}

structure Service (α γ σ : Type) where
  consume : σ → Prepared α → σ × Except BusError γ
  close : σ → γ → σ

inductive Call (α γ : Type) where
  | consume (p : Prepared α) (answer : Except BusError γ)
  | close (consumer : γ)

def Call.opened (w : Prepared α × γ) : Call α γ :=
  .consume w.1 (.ok w.2)

namespace Opening

def result? : Opening α γ → Option (Except DispatchError (List (Prepared α × γ)))
  | .started ws => some (.ok ws)
  | .failed e => some (.error (.bus e))
  | _ => none

end Opening

section OpenAll

variable {b : Service α γ σ}

/-- How far the calls came. Consumers are opened one after another; when a queue is refused, those
that are open are closed in the same order. -/
inductive Reached (ps : List (Prepared α)) : List (Call α γ) → Opening α γ → Prop where
  | opening {opened : List (Prepared α × γ)} {rest : List (Prepared α)}
      (split : opened.map (·.1) ++ rest = ps) :
      Reached ps (opened.map Call.opened) (.proceed opened rest)
  | closing {opened : List (Prepared α × γ)} {p : Prepared α} {rest : List (Prepared α)}
      {e : BusError} {done left : List γ} (split : opened.map (·.1) ++ p :: rest = ps)
      (consumers : done ++ left = opened.map (·.2)) :
      Reached ps (opened.map Call.opened ++ .consume p (.error e) :: done.map Call.close)
        (.closeAll e left)

theorem Reached.of_consuming {ps : List (Prepared α)} {calls : List (Call α γ)}
    {opened : List (Prepared α × γ)} {p : Prepared α} {rest : List (Prepared α)}
    (h : Reached ps calls (.consuming opened p rest)) :
    opened.map (·.1) ++ p :: rest = ps ∧ calls = opened.map Call.opened := by
  generalize ho : Opening.consuming opened p rest = o at h
  cases h with
  | @opening opened rest split =>
    cases rest with
    | nil => cases ho
    | cons =>
      cases ho
      exact ⟨split, rfl⟩
  | @closing _ _ _ _ _ left =>
    cases left <;> cases ho

theorem Reached.consumed {ps : List (Prepared α)} {calls : List (Call α γ)}
    {opened : List (Prepared α × γ)} {p : Prepared α} {rest : List (Prepared α)}
    (h : Reached ps calls (.consuming opened p rest)) (answer : Except BusError γ) :
    Reached ps (calls ++ [.consume p answer]) (Opening.consumed opened p rest answer) := by
  obtain ⟨split, rfl⟩ := h.of_consuming
  cases answer with
  | ok k =>
    have hopened : opened.map Call.opened ++ [.consume p (.ok k)] =
        (opened ++ [(p, k)]).map Call.opened := by
      rw [List.map_append]
      rfl
    rw [hopened]
    refine .opening ?_
    rw [List.map_append, List.append_assoc]
    exact split
  | error e =>
    have hrefused : Reached ps
        (opened.map Call.opened ++ .consume p (.error e) :: [].map Call.close)
        (.closeAll e (opened.map (·.2))) := .closing split rfl
    exact hrefused

theorem Reached.closed {ps : List (Prepared α)} {calls : List (Call α γ)} {left : List γ}
    {e : BusError} (h : Reached ps calls (.closing left e)) : ∃ k rest, left = k :: rest ∧
      Reached ps (calls ++ [.close k]) (Opening.closed left e) := by
  -- consumers are only closed while there are some
  generalize ho : Opening.closing left e = o at h
  cases h with
  | @opening _ rest => cases rest <;> cases ho
  | @closing opened p rest _ done left' split consumers =>
    cases left' with
    | nil => cases ho
    | cons k rest =>
      cases ho
      have hcalls : opened.map Call.opened ++ .consume p (.error e) :: done.map Call.close ++
          [.close k] =
          opened.map Call.opened ++ .consume p (.error e) :: (done ++ [k]).map Call.close := by
        simp
      refine ⟨k, rest, rfl, ?_⟩
      rw [hcalls]
      refine .closing split ?_
      rw [List.append_assoc]
      exact consumers

end OpenAll

section Preparing

variable {c : DispatcherConfig}

end Preparing

section Launch

variable {b : Service α γ σ} {c : DispatcherConfig} {r : HandlerRegistry α}

end Launch

end Dispatcher

namespace Broker

variable {α : Type}

theorem close_of_unheld {b : Broker} {k : Consumer}
    (h : ∀ g ∈ b.heldMessages k.queue, g.consumer ≠ k.id) : (b.close k).1 = b := by
  unfold close
  split
  · rfl
  · next q hq =>
    have hmine : q.held.filter (fun g => g.consumer == k.id) = [] := by
      rw [List.filter_eq_nil_iff]
      intro g hg
      rw [heldMessages_of_some hq] at h
      simpa using h g hg
    simp only [hmine, List.isEmpty_nil, if_true]

open Dispatcher

def service : Service α Consumer Broker where
  consume b p := b.consume p.queue p.config.effectivePrefetch
  close b k := (b.close k).1

end Broker

namespace Dispatcher

def Opening.consumers : Opening α γ → List γ
  | .consuming opened _ _ => opened.map (·.2)
  | .closing left _ => left
  | .started ws => ws.map (·.2)
  | .failed _ => []

theorem Opening.consumers_proceed (opened : List (Prepared α × γ)) (rest : List (Prepared α)) :
    (proceed opened rest).consumers = opened.map (·.2) := by
  cases rest <;> rfl

theorem Opening.consumers_closeAll (e : BusError) (left : List γ) :
    (closeAll e left : Opening α γ).consumers = left := by
  cases left <;> rfl

/-- A broker where a start has taken nothing yet: its consumers are newer than all that hold a
message. -/
structure Untouched (b₀ b : Broker) (o : Opening α Consumer) : Prop where
  messages : b₀.SameMessages b
  later : b₀.lastConsumer ≤ b.lastConsumer
  newer : ∀ k ∈ o.consumers, b₀.lastConsumer < k.id

section Untouched

variable {b₀ b : Broker}

theorem Untouched.consumed {opened : List (Prepared α × Consumer)} {p : Prepared α}
    {rest : List (Prepared α)} (h : Untouched b₀ b (.consuming opened p rest)) :
    Untouched b₀ (Broker.service.consume b p).1
      (.consumed opened p rest (Broker.service.consume b p).2) := by
  rcases b.consume_cases p.queue p.config.effectivePrefetch with ⟨e, he⟩ | hok
  · simp only [Broker.service, he, Opening.consumed]
    refine ⟨h.messages, h.later, ?_⟩
    rw [Opening.consumers_closeAll]
    exact h.newer
  · simp only [Broker.service, hok, Opening.consumed]
    refine ⟨⟨h.messages.ready, h.messages.held⟩, Nat.le_succ_of_le h.later, ?_⟩
    rw [Opening.consumers_proceed, List.map_append]
    intro k hk
    rcases List.mem_append.mp hk with hk | hk
    · exact h.newer k hk
    · obtain rfl := List.mem_singleton.mp hk
      exact Nat.lt_succ_of_le h.later

theorem Untouched.closed {left : List Consumer} {e : BusError}
    (holders : ∀ n, ∀ g ∈ b₀.heldMessages n, g.consumer ≤ b₀.lastConsumer)
    (h : Untouched (α := α) b₀ b (.closing left e)) :
    Untouched (α := α) b₀ (left.head?.elim b (Broker.service (α := α).close b))
      (.closed left e) := by
  have hsame : left.head?.elim b (Broker.service (α := α).close b) = b := by
    cases left with
    | nil => rfl
    | cons k left =>
      -- a consumer of this start is newer than whoever holds a message
      refine Broker.close_of_unheld fun g hg hid => ?_
      rw [h.messages.held] at hg
      have hle := holders k.queue g hg
      have hlt := h.newer k (.head _)
      omega
  rw [hsame]
  refine ⟨h.messages, h.later, ?_⟩
  rw [Opening.closed, Opening.consumers_closeAll]
  exact fun k hk => h.newer k (List.mem_of_mem_tail hk)

end Untouched
end Dispatcher

namespace Dispatcher

open HandlerRegistry

end Dispatcher
end OutcomeRelay
