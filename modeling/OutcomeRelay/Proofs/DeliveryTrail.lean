import Mathlib.Data.List.Induction
import Mathlib.Logic.Function.Iterate
import OutcomeRelay.Delivery.Run

/-!
The run of one delivery with everything that it did. A run waits for an answer from outside: of its
handler, of time, or of the broker. `Stage` lists what a run can have done by the time it waits for
each of them, and every answer leads from one stage to another.
-/

namespace OutcomeRelay

namespace RetryPolicy

section Growing

variable (p : RetryPolicy) (grow : Duration → Duration)

def waitAt (j : Nat) : Duration :=
  (Backoff.after grow p.maxInterval)^[j] p.initialInterval

def waitsFrom (j : Nat) : Backoff :=
  ⟨p.waitAt grow j, some (p.maxAttempts - 1 - j)⟩

theorem waitAt_succ (j : Nat) :
    p.waitAt grow (j + 1) = Backoff.after grow p.maxInterval (p.waitAt grow j) :=
  Function.iterate_succ_apply' _ _ _

theorem next?_waitsFrom {j : Nat} (hj : j + 1 < p.maxAttempts) :
    (p.waitsFrom grow j).next? grow p.maxInterval =
      some (p.waitAt grow j, p.waitsFrom grow (j + 1)) := by
  have hleft : p.maxAttempts - 1 - j = p.maxAttempts - 1 - (j + 1) + 1 := by omega
  simp only [Backoff.next?, waitsFrom, hleft, waitAt_succ]

end Growing

def delay (p : RetryPolicy) (j : Nat) : Duration :=
  p.waitAt p.grow j

def backoffAt (p : RetryPolicy) (j : Nat) : Backoff :=
  p.waitsFrom p.grow j

theorem nextWait?_backoffAt (p : RetryPolicy) {j : Nat} (hj : j + 1 < p.maxAttempts) :
    p.nextWait? (p.backoffAt j) = some (p.delay j, p.backoffAt (j + 1)) :=
  p.next?_waitsFrom p.grow hj

end RetryPolicy

namespace HandlerResult

theorem failure?_eq_none_iff (r : HandlerResult) : r.failure? = none ↔ r = .done := by
  cases r <;> simp [failure?]

theorem ne_done_concat {rs : List HandlerResult} {r : HandlerResult} {e : ErrorChain}
    (failed : ∀ r ∈ rs, r ≠ .done) (failure : r.failure? = some e) :
    ∀ s ∈ rs ++ [r], s ≠ .done := by
  intro s hs hdone
  rcases List.mem_append.mp hs with hs | hs
  · exact failed s hs hdone
  · rw [← List.mem_singleton.mp hs, hdone] at failure
    cases failure

end HandlerResult

namespace DeliveryRun

inductive Answer where
  | handler (result : HandlerResult)
  | elapsed
  | broker (answer : Except BusError Unit)

/-- What a run did: an invocation and its result, a wait, or a call to settle the delivery and the
broker's answer. A call that was made by a recovery comes with what that was given and with its
record. -/
inductive Event where
  | invoked (message : PaymentMessage) (result : HandlerResult)
  | waited (delay : Duration)
  | settled (call : AckerCall) (answer : Except BusError Unit)
      (recovery : Option (Reject × DeadLetterRecord))

namespace Event

def result? : Event → Option HandlerResult
  | .invoked _ r => some r
  | _ => none

def call? : Event → Option AckerCall
  | .settled c .. => some c
  | _ => none

end Event

/-- The phase after an answer, and what the run did; an answer that a phase does not wait for is
none. -/
def Phase.answer (job : Job) : Phase → Answer → Option (Phase × Event)
  | .handling p, .handler r => some ((p.handled job r).1, .invoked (p.message job) r)
  | .waiting d p, .elapsed => some ((p.handle job).1, .waited d)
  | .acking n, .broker a =>
    (Phase.acking n).call?.map fun c => ((DeliveryRun.acked n a).1, .settled c a none)
  | .rejecting r, .broker a =>
    (Phase.rejecting r).call?.map fun c =>
      ((r.rejected a).1, .settled c a (some (r, (r.rejected a).2.1)))
  | _, _ => none

structure Trail where
  phase : Phase
  events : List Event := []

namespace Trail

def begin (job : Job) : Trail :=
  ⟨(DeliveryRun.start job).1, []⟩

def step (job : Job) (t : Trail) (a : Answer) : Option Trail :=
  (t.phase.answer job a).map fun next => ⟨next.1, t.events ++ [next.2]⟩

def results (t : Trail) : List HandlerResult :=
  t.events.filterMap Event.result?

def calls (t : Trail) : List AckerCall :=
  t.events.filterMap Event.call?

theorem results_concat (p q : Phase) (es : List Event) (e : Event) :
    (⟨p, es ++ [e]⟩ : Trail).results = (⟨q, es⟩ : Trail).results ++ e.result?.toList := by
  cases e <;> simp [results, Event.result?]

end Trail

namespace Job

def maxAttempts (job : Job) : Nat :=
  job.policy.maxAttempts

def message (job : Job) (fields : MessageFields) (n : Nat) : PaymentMessage where
  fields := fields
  queue := job.delivery.queue
  routingKey := job.delivery.routingKey
  messageId := job.delivery.messageId
  redelivered := job.delivery.redelivered
  attempt := n

/-- Invocations with these results, one after another, each with the wait that follows it. -/
def rounds (job : Job) (fields : MessageFields) (rs : List HandlerResult) : List Event :=
  rs.zipIdx.flatMap fun r =>
    [.invoked (job.message fields (r.2 + 1)) r.1, .waited (job.policy.delay r.2)]

def reject (job : Job) (n : Nat) (chain : List String) : Reject where
  attempts := n
  body := job.delivery.body
  context := .ofDelivery job.delivery (some n)
  chain := chain

def recovery (job : Job) (n : Nat) (chain : List String) (a : Except BusError Unit) : Event :=
  .settled (.reject false) a (some (job.reject n chain, ((job.reject n chain).rejected a).2.1))

def progress (job : Job) (fields : MessageFields) (n : Nat) (last : Option ErrorChain)
    (waits : Backoff) : Progress :=
  ⟨fields, ⟨job.delivery.body, n, last⟩, waits⟩

variable (job : Job) (fields : MessageFields) (rs : List HandlerResult)

theorem rounds_concat (r : HandlerResult) :
    job.rounds fields (rs ++ [r]) = job.rounds fields rs ++
      [.invoked (job.message fields (rs.length + 1)) r, .waited (job.policy.delay rs.length)] := by
  simp [rounds, List.zipIdx_append]

theorem length_rounds : (job.rounds fields rs).length = 2 * rs.length := by
  induction rs using List.reverseRecOn with
  | nil => rfl
  | append_singleton rs r ih =>
    rw [rounds_concat, List.length_append, ih, List.length_append]
    simp only [List.length_cons, List.length_nil]
    omega

theorem results_rounds : (job.rounds fields rs).filterMap Event.result? = rs := by
  induction rs using List.reverseRecOn with
  | nil => rfl
  | append_singleton rs r ih =>
    rw [rounds_concat, List.filterMap_append, ih]
    rfl

theorem results_rounds_concat (m : PaymentMessage) (r : HandlerResult) :
    (job.rounds fields rs ++ [Event.invoked m r]).filterMap Event.result? = rs ++ [r] := by
  rw [List.filterMap_append, results_rounds]
  rfl

theorem calls_rounds : (job.rounds fields rs).filterMap Event.call? = [] := by
  induction rs using List.reverseRecOn with
  | nil => rfl
  | append_singleton rs r ih =>
    rw [rounds_concat, List.filterMap_append, ih]
    rfl

theorem answer_reject (job : Job) (n : Nat) (chain : List String) (a : Except BusError Unit) :
    (Phase.rejecting (job.reject n chain)).answer job (.broker a) =
      some (.finished (.deadLettered n), job.recovery n chain a) :=
  rfl

variable {n : Nat} {last : Option ErrorChain} {r : HandlerResult} {e : ErrorChain}

theorem handled_of_left (failure : r.failure? = some e) (left : n + 1 < job.maxAttempts) :
    ((job.progress fields (n + 1) last (job.policy.backoffAt n)).handled job r).1 =
      .waiting (job.policy.delay n)
        (job.progress fields (n + 1) (some e) (job.policy.backoffAt (n + 1))) := by
  have hexhausted : ¬ job.policy.maxAttempts ≤ n + 1 := by
    unfold maxAttempts at left
    omega
  simp only [Progress.handled, failure, Progress.failed, progress, DeliveryAttempt.exhausted,
    hexhausted, decide_false, Bool.false_eq_true, if_false, RetryPolicy.nextWait?_backoffAt _ left,
    DeliveryAttempt.recordFailure]

theorem handled_of_last (failure : r.failure? = some e) (hlast : n + 1 = job.maxAttempts) :
    ((job.progress fields (n + 1) last (job.policy.backoffAt n)).handled job r).1 =
      .rejecting (job.reject job.maxAttempts e.texts) := by
  simp only [Progress.handled, failure, Progress.failed, progress, DeliveryAttempt.exhausted, hlast,
    maxAttempts, Nat.le_refl, decide_true, if_true]
  rfl

end Job

/-- What a run has done when it is in a phase. Before the last invocation all have failed. -/
inductive Stage (job : Job) : Trail → Prop where
  | handling {fields : MessageFields} {rs : List HandlerResult} {last : Option ErrorChain}
      (decoded : PaymentMessage.decode job.delivery.body = .ok fields)
      (failed : ∀ r ∈ rs, r ≠ .done) (left : rs.length < job.maxAttempts) :
      Stage job ⟨.handling (job.progress fields (rs.length + 1) last
          (job.policy.backoffAt rs.length)), job.rounds fields rs⟩
  | waiting {fields : MessageFields} {rs : List HandlerResult} {r : HandlerResult} {e : ErrorChain}
      (decoded : PaymentMessage.decode job.delivery.body = .ok fields)
      (failed : ∀ r ∈ rs, r ≠ .done) (failure : r.failure? = some e)
      (left : rs.length + 1 < job.maxAttempts) :
      Stage job ⟨.waiting (job.policy.delay rs.length) (job.progress fields (rs.length + 1) (some e)
          (job.policy.backoffAt (rs.length + 1))),
        job.rounds fields rs ++ [.invoked (job.message fields (rs.length + 1)) r]⟩
  | acking {fields : MessageFields} {rs : List HandlerResult}
      (decoded : PaymentMessage.decode job.delivery.body = .ok fields)
      (failed : ∀ r ∈ rs, r ≠ .done) (left : rs.length < job.maxAttempts) :
      Stage job ⟨.acking (rs.length + 1),
        job.rounds fields rs ++ [.invoked (job.message fields (rs.length + 1)) .done]⟩
  | acked {fields : MessageFields} {rs : List HandlerResult} (a : Except BusError Unit)
      (decoded : PaymentMessage.decode job.delivery.body = .ok fields)
      (failed : ∀ r ∈ rs, r ≠ .done) (left : rs.length < job.maxAttempts) :
      Stage job ⟨(DeliveryRun.acked (rs.length + 1) a).1,
        job.rounds fields rs ++
          [.invoked (job.message fields (rs.length + 1)) .done, .settled .ack a none]⟩
  | undecodable {e : DecodeError} (refused : PaymentMessage.decode job.delivery.body = .error e) :
      Stage job ⟨.rejecting (job.reject 0 e.chain), []⟩
  | discarded {e : DecodeError} (a : Except BusError Unit)
      (refused : PaymentMessage.decode job.delivery.body = .error e) :
      Stage job ⟨.finished (.deadLettered 0), [job.recovery 0 e.chain a]⟩
  | exhausted {fields : MessageFields} {rs : List HandlerResult} {r : HandlerResult}
      {e : ErrorChain} (decoded : PaymentMessage.decode job.delivery.body = .ok fields)
      (failed : ∀ r ∈ rs, r ≠ .done) (failure : r.failure? = some e)
      (last : rs.length + 1 = job.maxAttempts) :
      Stage job ⟨.rejecting (job.reject job.maxAttempts e.texts),
        job.rounds fields rs ++ [.invoked (job.message fields job.maxAttempts) r]⟩
  | deadLettered {fields : MessageFields} {rs : List HandlerResult} {r : HandlerResult}
      {e : ErrorChain} (a : Except BusError Unit)
      (decoded : PaymentMessage.decode job.delivery.body = .ok fields)
      (failed : ∀ r ∈ rs, r ≠ .done) (failure : r.failure? = some e)
      (last : rs.length + 1 = job.maxAttempts) :
      Stage job ⟨.finished (.deadLettered job.maxAttempts),
        job.rounds fields rs ++ [.invoked (job.message fields job.maxAttempts) r,
          job.recovery job.maxAttempts e.texts a]⟩

namespace Stage

variable {job : Job} {t t' : Trail}

theorem begin (job : Job) : Stage job (Trail.begin job) := by
  unfold Trail.begin DeliveryRun.start
  cases h : PaymentMessage.decode job.delivery.body with
  | error e => exact .undecodable h
  | ok fields => exact @Stage.handling job fields [] none h (by simp) job.policy.maxAttempts_pos

theorem step {a : Answer} (h : Stage job t) (hs : t.step job a = some t') : Stage job t' := by
  -- each stage waits for one kind of answer, and takes no other
  cases h with
  | @handling fields rs last decoded failed left =>
    cases a <;> simp only [Trail.step, Phase.answer, Option.map_none, Option.map_some,
      Option.some.injEq, reduceCtorEq] at hs
    rename_i r
    subst hs
    cases hr : r.failure? with
    | none =>
      rw [HandlerResult.failure?_eq_none_iff] at hr
      subst hr
      exact .acking decoded failed left
    | some e =>
      by_cases hleft : rs.length + 1 < job.maxAttempts
      · rw [job.handled_of_left fields hr hleft]
        exact .waiting decoded failed hr hleft
      · have hlast : rs.length + 1 = job.maxAttempts := by omega
        have hmessage : (job.progress fields (rs.length + 1) last
            (job.policy.backoffAt rs.length)).message job = job.message fields job.maxAttempts := by
          rw [← hlast]
          rfl
        rw [job.handled_of_last fields hr hlast, hmessage]
        exact .exhausted decoded failed hr hlast
  | @waiting fields rs r e decoded failed failure left =>
    cases a <;> simp only [Trail.step, Phase.answer, Option.map_none, Option.map_some,
      Option.some.injEq, reduceCtorEq] at hs
    subst hs
    -- the wait completes the round of the failed invocation
    have hrounds : job.rounds fields rs ++ [.invoked (job.message fields (rs.length + 1)) r] ++
        [.waited (job.policy.delay rs.length)] = job.rounds fields (rs ++ [r]) := by
      rw [Job.rounds_concat, List.append_assoc]
      rfl
    rw [hrounds]
    have hlen : rs.length + 1 = (rs ++ [r]).length := by simp
    rw [hlen] at left ⊢
    exact .handling decoded (HandlerResult.ne_done_concat failed failure) left
  | acking decoded failed left =>
    cases a <;> simp only [Trail.step, Phase.answer, Phase.call?, Option.map_none, Option.map_some,
      Option.some.injEq, reduceCtorEq] at hs
    subst hs
    rw [List.append_assoc]
    exact .acked _ decoded failed left
  | acked a =>
    cases a <;> cases ‹Answer› <;> simp [Trail.step, Phase.answer, DeliveryRun.acked] at hs
  | undecodable refused =>
    cases a with
    | handler | elapsed => simp [Trail.step, Phase.answer] at hs
    | broker a =>
      simp only [Trail.step, Job.answer_reject, Option.map_some, Option.some.injEq] at hs
      subst hs
      exact .discarded a refused
  | discarded => cases ‹Answer› <;> simp [Trail.step, Phase.answer] at hs
  | exhausted decoded failed failure last =>
    cases a with
    | handler | elapsed => simp [Trail.step, Phase.answer] at hs
    | broker a =>
      simp only [Trail.step, Job.answer_reject, Option.map_some, Option.some.injEq] at hs
      subst hs
      rw [List.append_assoc]
      exact .deadLettered a decoded failed failure last
  | deadLettered => cases ‹Answer› <;> simp [Trail.step, Phase.answer] at hs

end Stage
end DeliveryRun
end OutcomeRelay
