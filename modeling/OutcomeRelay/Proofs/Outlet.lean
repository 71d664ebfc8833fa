import OutcomeRelay.Proofs.EventWire
import OutcomeRelay.Proofs.OutcomeRouting
import OutcomeRelay.Proofs.PublishCall

/-!
Publish calls on one broker. The topology of the names is declared first; from then on calls are
the only ones that send, each on the route of its outcome, while clients of any other kind consume,
settle, and cut or restore the connection. Sends are kept with the call that made them.
-/

namespace OutcomeRelay

open Bus Publisher

namespace Publisher.Publication

def status : Publication → PaymentStatus
  | .event e => e.paymentStatus
  | .notice .. => .failed

def InRange : Publication → Prop
  | .event e => e.createdAt.InRange ∧ e.updatedAt.InRange
  | .notice n _ => n.createdAt.InRange

instance : (p : Publication) → Decidable p.InRange
  | .event e => inferInstanceAs (Decidable (e.createdAt.InRange ∧ e.updatedAt.InRange))
  | .notice n _ => inferInstanceAs (Decidable n.createdAt.InRange)

def stored (p : Publication) (names : TopologyNames) (copy : Nat) : StoredMessage where
  copy := copy
  exchange := names.exchange
  routingKey := (names.routes.target p.status).routingKey
  body := p.body
  messageId := some p.messageId
  redelivered := false
  deathCount := 0

end Publisher.Publication

namespace PaymentStatus

/-- A body that tells this outcome: a valid event of its own kind, or a notice of a failure. -/
def Tells : PaymentStatus → Bytes → Prop
  | .success, body => ∃ e, OutcomeEvent.decode? body = .ok e ∧ e.validate = .ok () ∧
      e.paymentStatus = .success ∧ Text.blank e.transactionId = false
  | .failed, body =>
    (∃ e, OutcomeEvent.decode? body = .ok e ∧ e.validate = .ok () ∧ e.paymentStatus = .failed) ∨
      ∃ n, FailureNotice.decode? body = .ok n

end PaymentStatus

namespace Outlet

structure Post where
  publication : Publication
  call : Call

structure Sent where
  post : Nat
  entry : Entry

inductive Move where
  | client (op : Op)
  | publish (c : PublisherConfig) (p : Publication) (times : p.InRange)
  | attempt (post : Nat)
  | tell (post : Nat) (answer : Answer)

end Outlet

structure Outlet where
  history : History
  posts : List Outlet.Post := []
  sends : List Outlet.Sent := []

namespace Bus.Op

def Consumes : Op → Bool
  | .declare _ | .declareEntity _ | .send _ => false
  | _ => true

def isSend : Op → Bool
  | .send _ => true
  | _ => false

end Bus.Op

namespace Outlet

def begin (names : TopologyNames) : Outlet where
  history := (({} : History).perform (.declare names.topology)).1

def appended (o : Outlet) (i : Nat) (queue : String) : List StoredMessage :=
  (o.sends.filter fun s => s.post == i).flatMap fun s => s.entry.arrivals queue

def attempt (o : Outlet) (i : Nat) (t : Post) : Option Outlet :=
  match t.call.message, t.call.sending with
  | .ok m, .attempt .. =>
    let done := o.history.perform (.send m)
    (t.call.step (.transport done.2.answer)).map fun call => {
      history := done.1
      posts := o.posts.set i { t with call }
      sends := o.sends ++ [⟨i, o.history.next (.send m)⟩] }
  | _, _ => none

def tell (o : Outlet) (i : Nat) (t : Post) : Answer → Option Outlet
  | .transport _ => none
  | a => (t.call.step a).map fun call => { o with posts := o.posts.set i { t with call } }

def next (names : TopologyNames) (o : Outlet) : Move → Option Outlet
  | .client op => if op.Consumes then some { o with history := (o.history.perform op).1 } else none
  | .publish c p _ =>
    some { o with posts := o.posts ++ [⟨p, .begin c (names.routes.target p.status) p⟩] }
  | .attempt i => o.posts[i]?.bind fun t => o.attempt i t
  | .tell i a => o.posts[i]?.bind fun t => o.tell i t a

def step (names : TopologyNames) (o : Outlet) (m : Move) : Outlet :=
  (o.next names m).getD o

/-- A run from the declared topology. A move that cannot be made now changes nothing. -/
def run (names : TopologyNames) (moves : List Move) : Outlet :=
  moves.foldl (step names) (begin names)

theorem run_induction {names : TopologyNames} {P : Outlet → Prop} (init : P (begin names))
    (step : ∀ o m o', P o → o.next names m = some o' → P o') (moves : List Move) :
    P (run names moves) := by
  have hfold : ∀ (moves : List Move) (o : Outlet), P o → P (moves.foldl (Outlet.step names) o) := by
    intro moves
    induction moves with
    | nil => exact fun _ h => h
    | cons m moves ih =>
      intro o h
      refine ih _ ?_
      unfold Outlet.step
      cases hm : o.next names m with
      | none => exact h
      | some o' => exact step o m o' h hm
  exact hfold moves _ init

end Outlet
end OutcomeRelay
