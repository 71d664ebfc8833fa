import OutcomeRelay.Proofs.PublishCall
import OutcomeRelay.Publisher.Monitor

/-!
Publishers, their publish calls and one monitor, with the two channels between them. A channel ends
once nobody has a sending end of it: a publisher has both until it is dropped, and so has the watch
of a message that was handed over, from before its call returns. A run is any list of moves, and a
move that cannot be made now changes nothing.
-/

namespace OutcomeRelay

namespace ConfirmOutcome

def isAck : ConfirmOutcome → Bool
  | .ack => true
  | _ => false

def isNack : ConfirmOutcome → Bool
  | .nack _ => true
  | _ => false

def isTimedOut : ConfirmOutcome → Bool
  | .timedOut => true
  | _ => false

end ConfirmOutcome

namespace Publisher

open Signal (Channel)

def Signal.reports (kind : ConfirmOutcome → Bool) : Signal → Bool
  | .confirmed s => kind s.outcome
  | .returned _ => false

def Signal.isReturn : Signal → Bool
  | .confirmed _ => false
  | .returned _ => true

def Resolution.isReturned : Resolution → Bool
  | .confirmed (.returned _) => true
  | _ => false

structure Ends where
  confirms : Bool := false
  returns : Bool := false
  deriving DecidableEq, Repr

namespace Ends

def both : Ends :=
  ⟨true, true⟩

def has (e : Ends) : Channel → Bool
  | .confirms => e.confirms
  | .returns => e.returns

def without (e : Ends) : Channel → Ends
  | .confirms => { e with confirms := false }
  | .returns => { e with returns := false }

theorem has_both (ch : Channel) : both.has ch := by
  cases ch <;> rfl

theorem has_of_without {e : Ends} {ch ch' : Channel} (h : (e.without ch).has ch') :
    e.has ch' := by
  cases ch <;> cases ch' <;> first | exact h | cases h

theorem eq_empty {e : Ends} (h : ∀ ch, e.has ch = false) : e = {} := by
  obtain ⟨confirms, returns⟩ := e
  have hconfirms : confirms = false := h .confirms
  have hreturns : returns = false := h .returns
  rw [hconfirms, hreturns]

end Ends

namespace Call

def isOver (t : Call) : Bool :=
  t.isAccepted && t.resolution.isSome && t.left.isEmpty

def outcome? (t : Call) : Option ConfirmOutcome :=
  if t.isAccepted then t.resolution.map Resolution.outcome else none

def isReturned (t : Call) : Bool :=
  t.isAccepted && t.resolution.any Resolution.isReturned

def tells (t : Call) : Answer → List Signal
  | .turn => t.left.take 1
  | _ => []

end Call

/-- A publish call of a publisher, with the ends that its watch has. The caller may give it up. -/
structure Posting where
  publisher : Nat
  target : RoutingTarget
  publication : Publication
  call : Call
  ends : Ends := {}
  givenUp : Bool := false

namespace Posting

def begin (c : PublisherConfig) (publisher : Nat) (target : RoutingTarget) (p : Publication) :
    Posting :=
  { publisher, target, publication := p, call := .begin c target p }

def isRunning (s : Posting) : Bool :=
  !s.givenUp && s.call.result?.isNone

/-- The call goes on. Its watch begins, with ends of its own, when the message is handed over. -/
def hear (s : Posting) (a : Answer) : Option Posting :=
  if s.givenUp then none
  else (s.call.step a).map fun t =>
    match a with
    | .transport (.ok _) => { s with call := t, ends := .both }
    | _ => { s with call := t }

end Posting

structure Flow where
  config : PublisherConfig
  publishers : List Ends := [.both]
  postings : List Posting := []
  confirms : List ConfirmSignal := []
  returns : List ReturnSignal := []
  heard : List Signal := []
  monitor : Monitor := .start

namespace Flow

inductive Move where
  | clone (publisher : Nat)
  | drop (publisher : Nat) (ch : Channel)
  | publish (publisher : Nat) (target : RoutingTarget) (p : Publication)
  | answer (posting : Nat) (a : Answer)
  | giveUp (posting : Nat)
  | leave (posting : Nat) (ch : Channel)
  | look (ch : Channel)

def waiting (f : Flow) : Channel → List Signal
  | .confirms => f.confirms.map .confirmed
  | .returns => f.returns.map .returned

def queued (f : Flow) : List Signal :=
  f.waiting .confirms ++ f.waiting .returns

def hasSender (f : Flow) (ch : Channel) : Bool :=
  f.publishers.any (fun e => e.has ch) || f.postings.any (fun s => s.ends.has ch)

def tell (f : Flow) (xs : List Signal) : Flow :=
  { f with
    confirms := f.confirms ++ xs.filterMap Signal.confirm?
    returns := f.returns ++ xs.filterMap Signal.return? }

def behind (f : Flow) : Channel → Flow
  | .confirms => { f with confirms := f.confirms.tail }
  | .returns => { f with returns := f.returns.tail }

def look (f : Flow) (ch : Channel) : Option Flow :=
  if f.monitor.looksAt ch then
    match f.waiting ch with
    | x :: _ => some { f.behind ch with heard := f.heard ++ [x], monitor := f.monitor.take x }
    | [] => if f.hasSender ch then none else some { f with monitor := f.monitor.findClosed ch }
  else none

def put (f : Flow) (j : Nat) (s : Posting) : Flow :=
  { f with postings := f.postings.set j s }

def answer (f : Flow) (j : Nat) (s : Posting) (a : Answer) : Option Flow :=
  (s.hear a).map fun s' => (f.put j s').tell (s.call.tells a)

def next (f : Flow) : Move → Option Flow
  | .clone i =>
    if f.publishers[i]? = some .both then some { f with publishers := f.publishers ++ [.both] }
    else none
  | .drop i ch =>
    f.publishers[i]?.bind fun e =>
      if f.postings.any fun s => s.isRunning && s.publisher == i then none
      else some { f with publishers := f.publishers.set i (e.without ch) }
  | .publish i target p =>
    if f.publishers[i]? = some .both then
      some { f with postings := f.postings ++ [.begin f.config i target p] }
    else none
  | .answer j a => f.postings[j]?.bind fun s => f.answer j s a
  | .giveUp j =>
    f.postings[j]?.bind fun s =>
      if s.isRunning then some (f.put j { s with givenUp := true }) else none
  | .leave j ch =>
    f.postings[j]?.bind fun s =>
      if s.call.isOver then some (f.put j { s with ends := s.ends.without ch }) else none
  | .look ch => f.look ch

def step (f : Flow) (m : Move) : Flow :=
  (f.next m).getD f

def run (c : PublisherConfig) (moves : List Move) : Flow :=
  moves.foldl step { config := c }

end Flow
end Publisher
end OutcomeRelay
