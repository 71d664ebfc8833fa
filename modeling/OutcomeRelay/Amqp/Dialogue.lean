import OutcomeRelay.Amqp.Method

/-!
Dialogues of a client with its broker: a request, and what follows on its answer. A dialogue is run
against a state that answers requests; `transcript` lists the requests with the answers they got.
-/

namespace OutcomeRelay.Amqp

inductive Request where
  | connection
  | isOpen (channel : Nat)
  | call (channel : Nat) (method : Method)
  deriving DecidableEq, Repr

inductive Dialogue (α : Type) where
  | done (result : α)
  | ask (request : Request) (next : Bool → Dialogue α)

namespace Dialogue

variable {α β σ : Type}

def bind : Dialogue α → (α → Dialogue β) → Dialogue β
  | done a, f => f a
  | ask r next, f => ask r fun answer => (next answer).bind f

instance : Monad Dialogue where
  pure := done
  bind := bind

def request (r : Request) : Dialogue Bool :=
  ask r done

def run (answer : σ → Request → σ × Bool) : Dialogue α → σ → σ × α
  | done a, s => (s, a)
  | ask r next, s => run answer (next (answer s r).2) (answer s r).1

def transcript (answer : σ → Request → σ × Bool) : Dialogue α → σ → List (Request × Bool)
  | done _, _ => []
  | ask r next, s =>
    (r, (answer s r).2) :: transcript answer (next (answer s r).2) (answer s r).1

theorem run_bind (answer : σ → Request → σ × Bool) (d : Dialogue α) (f : α → Dialogue β) (s : σ) :
    run answer (d.bind f) s = run answer (f (run answer d s).2) (run answer d s).1 := by
  induction d generalizing s with
  | done a => rfl
  | ask r next ih => simpa only [bind, run] using ih (answer s r).2 (answer s r).1

theorem transcript_bind (answer : σ → Request → σ × Bool) (d : Dialogue α) (f : α → Dialogue β)
    (s : σ) : transcript answer (d.bind f) s =
      transcript answer d s ++ transcript answer (f (run answer d s).2) (run answer d s).1 := by
  induction d generalizing s with
  | done a => rfl
  | ask r next ih =>
    simpa only [bind, run, transcript, List.cons_append, List.cons.injEq, true_and] using
      ih (answer s r).2 (answer s r).1

end Dialogue
end OutcomeRelay.Amqp
