import Mathlib.Data.List.Basic
import OutcomeRelay.Publisher.Signal

/-!
One publish call with all that it does, the watch of its confirm included. A call is refused at
once, or goes through its attempts until its message is handed over or no wait is left; from then on
it only tells what became of the message. Each step takes one answer from outside.
-/

namespace OutcomeRelay.Publisher

inductive Publication where
  | event (e : OutcomeEvent)
  | notice (n : FailureNotice) (messageId : String)

namespace Publication

def validate : Publication → Except EventError Unit
  | .event e => e.validate
  | .notice .. => .ok ()

def body : Publication → Bytes
  | .event e => e.encode
  | .notice n _ => n.encode

def messageId : Publication → String
  | .event e => toString e.id.toNat
  | .notice _ id => id

def message (p : Publication) (c : PublisherConfig) (target : RoutingTarget) :
    Except PublishError Outbound :=
  match p with
  | .event e => ofEvent c target e
  | .notice n id => ofNotice c target id n

theorem message_eq (p : Publication) (c : PublisherConfig) (target : RoutingTarget) :
    p.message c target = match p.validate with
      | .error e => .error (.invalidEvent e)
      | .ok _ =>
        if target.exchange = "" ∨ target.routingKey = "" then .error (.invalidTarget target)
        else .ok ⟨target.exchange, target.routingKey, p.body, p.messageId, contentType,
          c.mandatory⟩ := by
  cases p <;> rfl

end Publication

inductive Answer where
  | transport (answer : Except BusError Unit)
  | elapsed
  | resolved (r : Resolution)
  | turn

inductive Event where
  | sent (message : Outbound) (answer : Except BusError Unit)
  | waited (delay : Duration)
  | resolved (r : Resolution)
  | told (s : Signal)

namespace Event

def answer? : Event → Option (Except BusError Unit)
  | .sent _ a => some a
  | _ => none

def signal? : Event → Option Signal
  | .told s => some s
  | _ => none

end Event

/-- A publish call. What is left to tell is known once the confirm has ended. -/
structure Call where
  config : PublisherConfig
  message : Except PublishError Outbound
  sending : Sending
  resolution : Option Resolution := none
  left : List Signal := []
  events : List Event := []

namespace Call

def begin (c : PublisherConfig) (target : RoutingTarget) (p : Publication) : Call where
  config := c
  message := p.message c target
  sending := .start c

def step (t : Call) (a : Answer) : Option Call :=
  match t.message, t.sending, a with
  | .ok o, .attempt n waits, .transport r =>
    some { t with sending := .sent t.config o n waits r, events := t.events ++ [.sent o r] }
  | .ok _, .pause n delay waits, .elapsed =>
    some { t with
      sending := (Sending.pause n delay waits).woken
      events := t.events ++ [.waited delay] }
  | .ok o, .accepted _, .resolved r =>
    match t.resolution with
    | none => some { t with
        resolution := some r
        left := signals o r
        events := t.events ++ [.resolved r] }
    | some _ => none
  | .ok _, .accepted _, .turn =>
    match t.left with
    | s :: rest => some { t with left := rest, events := t.events ++ [.told s] }
    | [] => none
  | _, _, _ => none

theorem step_events {t t' : Call} {a : Answer} (h : t.step a = some t') :
    ∃ e, t'.events = t.events ++ [e] := by
  unfold step at h
  repeat' split at h
  all_goals first | (obtain rfl := Option.some.inj h; exact ⟨_, rfl⟩) | cases h

def result? (t : Call) : Option (Except PublishError Receipt) :=
  match t.message, t.sending with
  | .error e, _ => some (.error e)
  | .ok _, .accepted r => some (.ok r)
  | .ok _, .exhausted e => some (.error e)
  | .ok _, _ => none

def isAccepted (t : Call) : Bool :=
  match t.result? with
  | some (.ok _) => true
  | _ => false

def answers (t : Call) : List (Except BusError Unit) :=
  t.events.filterMap Event.answer?

def told (t : Call) : List Signal :=
  t.events.filterMap Event.signal?

end Call

section Rounds

variable (c : PublisherConfig) (o : Outbound)

def Waits.after (j : Nat) : Waits :=
  ⟨false, ⟨c.retryDelay, some (c.attempts - 1 - j)⟩⟩

/-- Sends with these answers, one after another, each with the wait that follows it. -/
def rounds (as : List (Except BusError Unit)) : List Event :=
  as.flatMap fun a => [.sent o a, .waited c.retryDelay]

theorem rounds_concat (as : List (Except BusError Unit)) (a : Except BusError Unit) :
    rounds c o (as ++ [a]) = rounds c o as ++ [.sent o a, .waited c.retryDelay] := by
  simp [rounds]

theorem length_rounds (as : List (Except BusError Unit)) :
    (rounds c o as).length = 2 * as.length := by
  induction as with
  | nil => rfl
  | cons a as ih =>
    have hcons : rounds c o (a :: as) = .sent o a :: .waited c.retryDelay :: rounds c o as := rfl
    rw [hcons, List.length_cons, List.length_cons, ih, List.length_cons]
    omega

theorem answers_rounds (as : List (Except BusError Unit)) :
    (rounds c o as).filterMap Event.answer? = as := by
  induction as with
  | nil => rfl
  | cons a as ih => exact congrArg (a :: ·) ih

theorem told_rounds (as : List (Except BusError Unit)) :
    (rounds c o as).filterMap Event.signal? = [] := by
  induction as with
  | nil => rfl
  | cons a as ih => exact ih

theorem one_le_attempts : 1 ≤ c.attempts :=
  Nat.le_max_right _ _

theorem start_eq : Sending.start c = .attempt 1 (.after c 0) := rfl

theorem sent_of_left {n : Nat} (left : n + 1 < c.attempts) (e : BusError) :
    Sending.sent c o (n + 1) (.after c n) (.error e) =
      .pause (n + 2) c.retryDelay (.after c (n + 1)) := by
  have hleft : c.attempts - 1 - n = c.attempts - 1 - (n + 1) + 1 := by omega
  simp [Sending.sent, Sending.next, Waits.next?, Waits.after, Backoff.next?, Backoff.after, hleft]

theorem sent_of_last {n : Nat} (last : n + 1 = c.attempts) (e : BusError) :
    Sending.sent c o (n + 1) (.after c n) (.error e) = .exhausted (.exhausted c.attempts e) := by
  have hnone : c.attempts - 1 - n = 0 := by omega
  simp [Sending.sent, Sending.next, Waits.next?, Waits.after, Backoff.next?, hnone]

end Rounds

/-- How far a call of a message is, by what it did: no send before the last one was answered
well. -/
inductive Stage (c : PublisherConfig) : Except PublishError Outbound → Call → Prop where
  | refused (e : PublishError) : Stage c (.error e) ⟨c, .error e, .start c, none, [], []⟩
  | attempting {o : Outbound} {as : List (Except BusError Unit)} (failed : ∀ a ∈ as, a ≠ .ok ())
      (left : as.length < c.attempts) :
      Stage c (.ok o) ⟨c, .ok o, .attempt (as.length + 1) (.after c as.length), none, [],
        rounds c o as⟩
  | waiting {o : Outbound} {as : List (Except BusError Unit)} {e : BusError}
      (failed : ∀ a ∈ as, a ≠ .ok ()) (left : as.length + 1 < c.attempts) :
      Stage c (.ok o) ⟨c, .ok o, .pause (as.length + 2) c.retryDelay (.after c (as.length + 1)),
        none, [], rounds c o as ++ [.sent o (.error e)]⟩
  | exhausted {o : Outbound} {as : List (Except BusError Unit)} {e : BusError}
      (failed : ∀ a ∈ as, a ≠ .ok ()) (last : as.length + 1 = c.attempts) :
      Stage c (.ok o) ⟨c, .ok o, .exhausted (.exhausted c.attempts e), none, [],
        rounds c o as ++ [.sent o (.error e)]⟩
  | watching {o : Outbound} {as : List (Except BusError Unit)} (failed : ∀ a ∈ as, a ≠ .ok ())
      (left : as.length < c.attempts) :
      Stage c (.ok o) ⟨c, .ok o, .accepted ⟨o.messageId, targetOf o, as.length + 1⟩, none, [],
        rounds c o as ++ [.sent o (.ok ())]⟩
  | telling {o : Outbound} {as : List (Except BusError Unit)} {r : Resolution}
      {told left : List Signal} (failed : ∀ a ∈ as, a ≠ .ok ()) (allowed : as.length < c.attempts)
      (all : told ++ left = signals o r) :
      Stage c (.ok o) ⟨c, .ok o, .accepted ⟨o.messageId, targetOf o, as.length + 1⟩, some r, left,
        rounds c o as ++ [.sent o (.ok ()), .resolved r] ++ told.map .told⟩

namespace Stage

variable {c : PublisherConfig} {m : Except PublishError Outbound} {t t' : Call}

theorem begin (c : PublisherConfig) (target : RoutingTarget) (p : Publication) :
    Stage c (p.message c target) (Call.begin c target p) := by
  unfold Call.begin
  cases p.message c target with
  | error e => exact .refused e
  | ok o => exact @Stage.attempting c o [] (by simp) (one_le_attempts c)

theorem ne_ok_concat {as : List (Except BusError Unit)} {e : BusError}
    (failed : ∀ a ∈ as, a ≠ .ok ()) : ∀ a ∈ as ++ [.error e], a ≠ .ok () := by
  intro a ha
  rcases List.mem_append.mp ha with ha | ha
  · exact failed a ha
  · rw [List.mem_singleton.mp ha]
    nofun

theorem step {a : Answer} (h : Stage c m t) (hs : t.step a = some t') : Stage c m t' := by
  -- each stage takes one kind of answer only
  cases h with
  | refused e => cases hs
  | exhausted => cases a <;> cases hs
  | @attempting o as failed left =>
    cases a with
    | transport r =>
      obtain rfl := Option.some.inj hs
      cases r with
      | ok u => exact .watching failed left
      | error e =>
        by_cases hleft : as.length + 1 < c.attempts
        · rw [sent_of_left c o hleft]
          exact .waiting failed hleft
        · have hlast : as.length + 1 = c.attempts := by omega
          rw [sent_of_last c o hlast]
          exact .exhausted failed hlast
    | _ => cases hs
  | @waiting o as e failed left =>
    cases a with
    | elapsed =>
      obtain rfl := Option.some.inj hs
      -- the wait completes the round of the failed send
      have hrounds : rounds c o as ++ [.sent o (.error e)] ++ [.waited c.retryDelay] =
          rounds c o (as ++ [.error e]) := by
        rw [rounds_concat, List.append_assoc]
        rfl
      have hlength : (as ++ [Except.error e]).length = as.length + 1 := by simp
      have hstage := Stage.attempting (o := o) (ne_ok_concat (e := e) failed)
        (hlength.symm ▸ left)
      rwa [hlength, ← hrounds] at hstage
    | _ => cases hs
  | @watching o as failed left =>
    cases a with
    | resolved r =>
      obtain rfl := Option.some.inj hs
      have hstage := @telling c o as r [] (signals o r) failed left rfl
      rw [List.map_nil, List.append_nil] at hstage
      dsimp only
      rwa [List.append_assoc]
    | _ => cases hs
  | @telling o as r told left failed allowed all =>
    cases a with
    | turn =>
      cases left with
      | nil => cases hs
      | cons s rest =>
        obtain rfl := Option.some.inj hs
        have htold : told.map Event.told ++ [.told s] = (told ++ [s]).map Event.told := by simp
        dsimp only
        rw [List.append_assoc (_ ++ _), htold]
        exact .telling failed allowed (by rw [← all, List.append_assoc]; rfl)
    | _ => cases hs

end Stage
end OutcomeRelay.Publisher
