import OutcomeRelay.Proofs.DeliveryTrail
import OutcomeRelay.Proofs.RetrySettings

/-!
Waits between the invocations of a handler. A policy has one wait for each retry; the first is its
initial interval and none is longer than its longest, however waits grow in between. Every run waits
through them in order, one after each invocation that another follows, and has one left whenever it
needs one, so that the wait for a run that has none left is never used.
-/

namespace OutcomeRelay

namespace RetryPolicy

variable (p : RetryPolicy) (grow : Duration → Duration)

def waits : List Duration :=
  (List.range (p.maxAttempts - 1)).map (p.waitAt grow)

theorem waitsFrom_zero : p.waitsFrom grow 0 = p.backoff := rfl

theorem waitAt_le (j : Nat) : p.waitAt grow j ≤ p.maxInterval := by
  cases j with
  | zero => exact p.initial_le_max
  | succ j =>
    rw [waitAt_succ]
    exact Nat.min_le_right _ _

theorem length_waits : (p.waits grow).length = p.maxAttempts - 1 := by
  simp [waits]

theorem next?_waitsFrom_of_over {j : Nat} (hj : p.maxAttempts ≤ j + 1) :
    (p.waitsFrom grow j).next? grow p.maxInterval = none := by
  have hleft : p.maxAttempts - 1 - j = 0 := by omega
  simp only [Backoff.next?, waitsFrom, hleft]

theorem drop_waits {j : Nat} (hj : j + 1 < p.maxAttempts) :
    (p.waits grow).drop j = p.waitAt grow j :: (p.waits grow).drop (j + 1) := by
  have hlt : j < (p.waits grow).length := by
    rw [length_waits]
    omega
  rw [List.drop_eq_getElem_cons hlt]
  simp [waits]

theorem take_waitsFrom (n j : Nat) :
    ((p.waitsFrom grow j).take grow p.maxInterval n).1 = ((p.waits grow).drop j).take n := by
  induction n generalizing j with
  | zero => rfl
  | succ n ih =>
    by_cases hj : j + 1 < p.maxAttempts
    · have hnext := p.next?_waitsFrom grow hj
      have hdrop := p.drop_waits grow hj
      rw [Backoff.take, hnext, hdrop, List.take_succ_cons]
      exact congrArg (p.waitAt grow j :: ·) (ih (j + 1))
    · have hnext := p.next?_waitsFrom_of_over grow (Nat.le_of_not_lt hj)
      have hdrop : (p.waits grow).drop j = [] := by
        apply List.drop_eq_nil_of_le
        rw [length_waits]
        omega
      rw [Backoff.take, hnext, hdrop, List.take_nil]

theorem head_waits {d : Duration} {rest : List Duration} (h : p.waits grow = d :: rest) :
    d = p.initialInterval := by
  have hlength := congrArg List.length h
  rw [length_waits, List.length_cons] at hlength
  have hdrop := p.drop_waits grow (j := 0) (by omega)
  rw [List.drop_zero, h] at hdrop
  exact (List.cons.inj hdrop).1

theorem take_succ_waits {j : Nat} (hj : j + 1 < p.maxAttempts) :
    (p.waits grow).take (j + 1) = (p.waits grow).take j ++ [p.waitAt grow j] := by
  have hlt : j < (p.waits grow).length := by
    rw [length_waits]
    omega
  rw [List.take_succ_eq_append_getElem hlt]
  simp [waits]

end RetryPolicy

namespace DeliveryRun

/-- How waits grow, and how long a run waits that has none left. -/
structure Pacing where
  grow : Duration → Duration
  spare : Duration

def Pacing.ofPolicy (p : RetryPolicy) : Pacing where
  grow := p.grow
  spare := p.initialInterval

def Progress.failedAt (w : Pacing) (p : Progress) (job : Job) (e : ErrorChain) : Phase :=
  let p' := { p with tracker := p.tracker.recordFailure e }
  if p.tracker.exhausted job.policy.maxAttempts then
    (giveUp job p.tracker.body p.tracker.count e.texts).1
  else
    match p.waits.next? w.grow job.policy.maxInterval with
    | some (delay, waits) => .waiting delay { p' with waits }
    | none => .waiting w.spare p'

def Phase.answerAt (w : Pacing) (job : Job) (phase : Phase) (a : Answer) : Option (Phase × Event) :=
  match phase, a with
  | .handling p, .handler r =>
    some (r.failure?.elim (.acking p.tracker.count) (p.failedAt w job), .invoked (p.message job) r)
  | phase, a => phase.answer job a

def Event.wait? : Event → Option Duration
  | .waited d => some d
  | _ => none

def Phase.wait? : Phase → Option Duration
  | .waiting d _ => some d
  | _ => none

namespace Trail

def stepAt (w : Pacing) (job : Job) (t : Trail) (a : Answer) : Option Trail :=
  (t.phase.answerAt w job a).map fun next => ⟨next.1, t.events ++ [next.2]⟩

/-- A run that is told all this. An answer that it does not wait for changes nothing. -/
def runAt (w : Pacing) (job : Job) (answers : List Answer) : Trail :=
  answers.foldl (fun t a => (t.stepAt w job a).getD t) (Trail.begin job)

def run (job : Job) (answers : List Answer) : Trail :=
  answers.foldl (fun t a => (t.step job a).getD t) (Trail.begin job)

def waits (t : Trail) : List Duration :=
  t.events.filterMap Event.wait? ++ t.phase.wait?.toList

end Trail

section Own

variable (job : Job)

theorem Progress.failedAt_ofPolicy (p : Progress) (e : ErrorChain) :
    p.failedAt (.ofPolicy job.policy) job e = (p.failed job e).1 := by
  unfold Progress.failedAt Progress.failed Pacing.ofPolicy RetryPolicy.nextWait?
  dsimp only
  cases p.tracker.exhausted job.policy.maxAttempts with
  | true => rfl
  | false =>
    cases p.waits.next? job.policy.grow job.policy.maxInterval with
    | none => rfl
    | some next => rfl

theorem Phase.answerAt_ofPolicy (phase : Phase) (a : Answer) :
    phase.answerAt (.ofPolicy job.policy) job a = phase.answer job a := by
  unfold Phase.answerAt
  split
  · next p r =>
    rw [Phase.answer, Progress.handled]
    cases r.failure? with
    | none => rfl
    | some e =>
      have hfailed := p.failedAt_ofPolicy job e
      simp only [Option.elim_some, hfailed]
  · rfl

theorem Trail.runAt_ofPolicy (answers : List Answer) :
    Trail.runAt (.ofPolicy job.policy) job answers = Trail.run job answers := by
  unfold Trail.runAt Trail.run Trail.stepAt Trail.step
  simp only [Phase.answerAt_ofPolicy]

end Own

def Trail.Alternates (t : Trail) : Prop :=
  t.waits.length ≤ t.results.length ∧ t.results.length ≤ t.waits.length + 1

/-- How far a run came with its waits. Before the `j`-th retry it was invoked `j` times and waited
for the first `j`, and a run that handles no more has waited for some of them. -/
inductive Paced (w : Pacing) (job : Job) (t : Trail) : Prop where
  | handling {p : Progress} {j : Nat} (phase : t.phase = .handling p)
      (count : p.tracker.count = j + 1) (ahead : p.waits = job.policy.waitsFrom w.grow j)
      (waited : t.waits = (job.policy.waits w.grow).take j) (times : t.waits.length = j)
      (invoked : t.results.length = j)
  | waiting {d : Duration} {p : Progress} {j : Nat} (phase : t.phase = .waiting d p)
      (count : p.tracker.count = j) (ahead : p.waits = job.policy.waitsFrom w.grow j)
      (waited : t.waits = (job.policy.waits w.grow).take j) (times : t.waits.length = j)
      (invoked : t.results.length = j)
  | settling {j : Nat} (unhandled : ∀ p, t.phase ≠ .handling p)
      (unwaiting : ∀ d p, t.phase ≠ .waiting d p)
      (waited : t.waits = (job.policy.waits w.grow).take j) (alternates : t.Alternates)

section Pacing

variable {w : Pacing} {job : Job} {t t' : Trail}

theorem Paced.prefix_waits (h : Paced w job t) : t.waits <+: job.policy.waits w.grow := by
  cases h with
  | handling _ _ _ waited | waiting _ _ _ waited | settling _ _ waited =>
    rw [waited]
    exact List.take_prefix _ _

theorem Paced.alternates (h : Paced w job t) : t.Alternates := by
  cases h with
  | handling _ _ _ _ times invoked | waiting _ _ _ _ times invoked =>
    rw [Trail.Alternates, times, invoked]
    omega
  | settling _ _ _ alternates => exact alternates

theorem waits_concat (phase : Phase) (es : List Event) (e : Event) :
    (⟨phase, es ++ [e]⟩ : Trail).waits =
      es.filterMap Event.wait? ++ (e.wait?.toList ++ phase.wait?.toList) := by
  cases e <;> simp [Trail.waits, Event.wait?]

theorem results_invoked (phase : Phase) (es : List Event) (m : PaymentMessage)
    (r : HandlerResult) : (⟨phase, es ++ [.invoked m r]⟩ : Trail).results.length =
      (⟨phase, es⟩ : Trail).results.length + 1 := by
  rw [Trail.results_concat _ phase, List.length_append]
  rfl

theorem quiet_concat {phase phase' : Phase} (es : List Event) {e : Event}
    (unwaited : e.wait? = none) (uninvoked : e.result? = none) (same : phase'.wait? = phase.wait?) :
    (⟨phase', es ++ [e]⟩ : Trail).waits = (⟨phase, es⟩ : Trail).waits ∧
      (⟨phase', es ++ [e]⟩ : Trail).results = (⟨phase, es⟩ : Trail).results := by
  rw [waits_concat, Trail.results_concat _ phase, unwaited, uninvoked, same]
  exact ⟨rfl, List.append_nil _⟩

theorem Paced.begin (w : Pacing) (job : Job) : Paced w job (Trail.begin job) := by
  cases hdecoded : PaymentMessage.decode job.delivery.body with
  | error e =>
    have hbegin : (Trail.begin job).phase = .rejecting (job.reject 0 e.chain) := by
      simp only [Trail.begin, DeliveryRun.start, hdecoded]
      rfl
    have hwaits : (Trail.begin job).waits = [] := by
      simp only [Trail.waits, hbegin]
      rfl
    refine .settling (j := 0) ?_ ?_ hwaits ⟨?_, ?_⟩
    · simp [hbegin]
    · simp [hbegin]
    · rw [hwaits]
      exact Nat.zero_le _
    · exact Nat.zero_le _
  | ok fields =>
    have hbegin : (Trail.begin job).phase =
        .handling ⟨fields, { body := job.delivery.body, count := 1 }, job.policy.backoff⟩ := by
      simp only [Trail.begin, DeliveryRun.start, hdecoded]
      rfl
    have hwaits : (Trail.begin job).waits = [] := by
      simp only [Trail.waits, hbegin]
      rfl
    exact .handling (j := 0) hbegin rfl rfl hwaits (congrArg List.length hwaits) rfl

theorem failedAt_of_left {p : Progress} {j : Nat} (count : p.tracker.count = j + 1)
    (left : j + 1 < job.maxAttempts) (ahead : p.waits = job.policy.waitsFrom w.grow j)
    (e : ErrorChain) :
    p.failedAt w job e = .waiting (job.policy.waitAt w.grow j)
      { p with
        tracker := p.tracker.recordFailure e
        waits := job.policy.waitsFrom w.grow (j + 1) } := by
  have hexhausted : p.tracker.exhausted job.policy.maxAttempts = false := by
    rw [DeliveryAttempt.exhausted, count, decide_eq_false_iff_not, Nat.not_le]
    exact left
  have hnext := job.policy.next?_waitsFrom w.grow left
  rw [Progress.failedAt, if_neg (by simp [hexhausted]), ahead, hnext]

theorem failedAt_of_last {p : Progress} {j : Nat} (count : p.tracker.count = j + 1)
    (last : job.maxAttempts ≤ j + 1) (e : ErrorChain) :
    p.failedAt w job e = (giveUp job p.tracker.body (j + 1) e.texts).1 := by
  have hexhausted : p.tracker.exhausted job.policy.maxAttempts = true := by
    rw [DeliveryAttempt.exhausted, count, decide_eq_true_iff]
    exact last
  rw [Progress.failedAt, if_pos hexhausted, count]

theorem Paced.invoked {p : Progress} {j : Nat} {events : List Event} (r : HandlerResult)
    (count : p.tracker.count = j + 1) (ahead : p.waits = job.policy.waitsFrom w.grow j)
    (waited : events.filterMap Event.wait? = (job.policy.waits w.grow).take j)
    (times : (events.filterMap Event.wait?).length = j)
    (invoked : (events.filterMap Event.result?).length = j) :
    Paced w job ⟨r.failure?.elim (.acking p.tracker.count) (p.failedAt w job),
      events ++ [.invoked (p.message job) r]⟩ := by
  have hwaits : ∀ phase : Phase,
      (⟨phase, events ++ [.invoked (p.message job) r]⟩ : Trail).waits =
        events.filterMap Event.wait? ++ phase.wait?.toList := by
    intro phase
    exact waits_concat _ _ _
  have hresults : ∀ phase : Phase,
      (⟨phase, events ++ [.invoked (p.message job) r]⟩ : Trail).results.length = j + 1 := by
    intro phase
    rw [results_invoked, Trail.results, invoked]
  have hsettling : ∀ phase : Phase, (∀ p, phase ≠ .handling p) → (∀ d p, phase ≠ .waiting d p) →
      phase.wait? = none → Paced w job ⟨phase, events ++ [.invoked (p.message job) r]⟩ := by
    intro phase unhandled unwaiting hnone
    have hsame := hwaits phase
    rw [hnone, Option.toList_none, List.append_nil] at hsame
    refine .settling (j := j) unhandled unwaiting (hsame.trans waited) ?_
    rw [Trail.Alternates, hsame, times, hresults]
    omega
  cases r.failure? with
  | none => refine hsettling _ (fun p h => ?_) (fun d p h => ?_) rfl <;> cases h
  | some e =>
    simp only [Option.elim_some]
    by_cases hleft : j + 1 < job.maxAttempts
    · have hfailed := failedAt_of_left count hleft ahead e
      have hmore := hwaits (p.failedAt w job e)
      rw [hfailed] at hmore
      rw [hfailed]
      refine .waiting (j := j + 1) rfl count rfl ?_ ?_ (hresults _)
      · rw [hmore, waited, job.policy.take_succ_waits w.grow hleft]
        rfl
      · rw [hmore, List.length_append, times]
        rfl
    · have hfailed := failedAt_of_last (w := w) count (Nat.le_of_not_lt hleft) e
      rw [hfailed]
      refine hsettling _ (fun p h => ?_) (fun d p h => ?_) rfl <;> cases h

theorem Paced.step {a : Answer} (h : Paced w job t) (hs : t.stepAt w job a = some t') :
    Paced w job t' := by
  obtain ⟨phase, events⟩ := t
  cases h with
  | @handling p j hphase count ahead waited times invoked =>
    dsimp only at hphase
    subst hphase
    have hevents : (⟨.handling p, events⟩ : Trail).waits = events.filterMap Event.wait? :=
      List.append_nil _
    rw [hevents] at waited times
    cases a with
    | handler r =>
      simp only [Trail.stepAt, Phase.answerAt, Option.map_some, Option.some.injEq] at hs
      subst hs
      exact .invoked r count ahead waited times invoked
    | elapsed | broker => simp [Trail.stepAt, Phase.answerAt, Phase.answer] at hs
  | @waiting d p j hphase count ahead waited times invoked =>
    dsimp only at hphase
    subst hphase
    cases a with
    | elapsed =>
      simp only [Trail.stepAt, Phase.answerAt, Phase.answer, Option.map_some,
        Option.some.injEq] at hs
      subst hs
      -- the wait moves from the phase to what was done
      have hwaits : (⟨(p.handle job).1, events ++ [.waited d]⟩ : Trail).waits =
          (⟨.waiting d p, events⟩ : Trail).waits := waits_concat _ _ _
      have hresults : (⟨(p.handle job).1, events ++ [.waited d]⟩ : Trail).results =
          (⟨.waiting d p, events⟩ : Trail).results := by
        rw [Trail.results_concat _ (.waiting d p)]
        exact List.append_nil _
      refine .handling (j := j) rfl (congrArg Nat.succ count) ahead ?_ ?_ ?_
      · rw [hwaits, waited]
      · rw [hwaits, times]
      · rw [hresults, invoked]
    | handler | broker => simp [Trail.stepAt, Phase.answerAt, Phase.answer] at hs
  | @settling j unhandled unwaiting waited alternates =>
    dsimp only at unhandled unwaiting
    -- what is left to do is no wait and no invocation
    have hsettling : ∀ (phase' : Phase) (e : Event), (∀ p, phase' ≠ .handling p) →
        (∀ d p, phase' ≠ .waiting d p) → e.wait? = none → e.result? = none →
        phase'.wait? = phase.wait? → Paced w job ⟨phase', events ++ [e]⟩ := by
      intro phase' e unhandled' unwaiting' unwaited uninvoked same
      obtain ⟨hwaits, hresults⟩ := quiet_concat events unwaited uninvoked same
      refine .settling (j := j) unhandled' unwaiting' (hwaits.trans waited) ?_
      rw [Trail.Alternates, hwaits, hresults]
      exact alternates
    cases phase with
    | handling p => exact absurd rfl (unhandled p)
    | waiting d p => exact absurd rfl (unwaiting d p)
    | finished o => cases a <;> simp [Trail.stepAt, Phase.answerAt, Phase.answer] at hs
    | acking n =>
      cases a with
      | broker r =>
        simp only [Trail.stepAt, Phase.answerAt, Phase.answer, Phase.call?, Option.map_some,
          Option.some.injEq] at hs
        subst hs
        cases r with
        | ok u =>
          refine hsettling _ _ (fun p h => ?_) (fun d p h => ?_) rfl rfl rfl <;> cases h
        | error e =>
          refine hsettling _ _ (fun p h => ?_) (fun d p h => ?_) rfl rfl rfl <;> cases h
      | handler | elapsed => simp [Trail.stepAt, Phase.answerAt, Phase.answer] at hs
    | rejecting r =>
      cases a with
      | broker x =>
        simp only [Trail.stepAt, Phase.answerAt, Phase.answer, Phase.call?, Option.map_some,
          Option.some.injEq] at hs
        subst hs
        refine hsettling _ _ (fun p h => ?_) (fun d p h => ?_) rfl rfl rfl <;> cases h
      | handler | elapsed => simp [Trail.stepAt, Phase.answerAt, Phase.answer] at hs

theorem Paced.stepAt_spare (h : Paced w job t) (spare : Duration) (a : Answer) :
    t.stepAt ⟨w.grow, spare⟩ job a = t.stepAt w job a := by
  obtain ⟨phase, events⟩ := t
  cases h with
  | @handling p j hphase count ahead waited =>
    dsimp only at hphase
    subst hphase
    have hfailed : ∀ e, p.failedAt ⟨w.grow, spare⟩ job e = p.failedAt w job e := by
      intro e
      by_cases hleft : j + 1 < job.maxAttempts
      · have hother := failedAt_of_left (w := ⟨w.grow, spare⟩) count hleft ahead e
        rw [hother, failedAt_of_left count hleft ahead e]
      · have hlast := Nat.le_of_not_lt hleft
        rw [failedAt_of_last count hlast e, failedAt_of_last count hlast e]
    cases a with
    | handler r => simp only [Trail.stepAt, Phase.answerAt, funext hfailed]
    | elapsed | broker => rfl
  | waiting hphase count ahead waited =>
    dsimp only at hphase
    subst hphase
    rfl
  | settling unhandled unwaiting waited =>
    cases phase with
    | handling p => exact absurd rfl (unhandled p)
    | waiting | acking | rejecting | finished => rfl

theorem runAt_concat (w : Pacing) (job : Job) (answers : List Answer) (a : Answer) :
    Trail.runAt w job (answers ++ [a]) =
      ((Trail.runAt w job answers).stepAt w job a).getD (Trail.runAt w job answers) := by
  simp only [Trail.runAt, List.foldl_append, List.foldl_cons, List.foldl_nil]

theorem paced_runAt (w : Pacing) (job : Job) (answers : List Answer) :
    Paced w job (Trail.runAt w job answers) := by
  induction answers using List.reverseRecOn with
  | nil => exact .begin w job
  | append_singleton answers a ih =>
    rw [runAt_concat]
    cases hs : (Trail.runAt w job answers).stepAt w job a with
    | none => exact ih
    | some t => exact ih.step hs

theorem runAt_spare (w : Pacing) (spare : Duration) (job : Job) (answers : List Answer) :
    Trail.runAt ⟨w.grow, spare⟩ job answers = Trail.runAt w job answers := by
  induction answers using List.reverseRecOn with
  | nil => rfl
  | append_singleton answers a ih =>
    have hpaced := paced_runAt w job answers
    have hstep := hpaced.stepAt_spare spare a
    rw [runAt_concat, runAt_concat, ih, hstep]

end Pacing
end DeliveryRun

open DeliveryRun

/-- The waits of a policy with these settings, and of every run under it, if waits grow in this way.
Whatever a run would wait that has no wait left, its course is the same. -/
structure RetryPolicy.WaitsAsPlanned (c : RetryConfig) (p : RetryPolicy)
    (grow : Duration → Duration) : Prop where
  yields : ∀ n, (p.backoff.take grow p.maxInterval n).1 = (p.waits grow).take n
  length : (p.waits grow).length = c.maxAttempts - 1
  first : ∀ d rest, p.waits grow = d :: rest → d = .ofMillis c.initialIntervalMs
  bounded : ∀ d ∈ p.waits grow, d ≤ .ofMillis c.maxIntervalMs
  inOrder : ∀ delivery spare answers,
    (Trail.runAt ⟨grow, spare⟩ ⟨delivery, p⟩ answers).waits <+: p.waits grow
  alternates : ∀ delivery spare answers,
    (Trail.runAt ⟨grow, spare⟩ ⟨delivery, p⟩ answers).Alternates
  unspared : ∀ delivery spare spare' answers,
    Trail.runAt ⟨grow, spare⟩ ⟨delivery, p⟩ answers =
      Trail.runAt ⟨grow, spare'⟩ ⟨delivery, p⟩ answers

/-- Waits are complete and bounded for all settings that make a policy, whatever the rounding of
their growth, and the runs under the policy are among those that this is said of. -/
theorem RetryPolicy.waitsAsPlanned_of_toPolicy? {c : RetryConfig} {p : RetryPolicy}
    (accepted : c.toPolicy? = .ok p) :
    (∀ grow, WaitsAsPlanned c p grow) ∧
    ∀ delivery answers, Trail.run ⟨delivery, p⟩ answers =
      Trail.runAt ⟨p.grow, p.initialInterval⟩ ⟨delivery, p⟩ answers := by
  obtain ⟨-, hattempts, hinitial, -, hmax⟩ := RetryConfig.toPolicy?_eq_ok_iff.mp accepted
  refine ⟨fun grow => ?_, fun delivery answers => ?_⟩
  · constructor
    · intro n
      rw [← p.waitsFrom_zero grow, p.take_waitsFrom grow n 0, List.drop_zero]
    · rw [length_waits, hattempts]
    · intro d rest hwaits
      rw [p.head_waits grow hwaits, hinitial]
      rfl
    · intro d hd
      obtain ⟨j, -, rfl⟩ := List.mem_map.mp hd
      have hle := p.waitAt_le grow j
      rwa [hmax] at hle
    · intro delivery spare answers
      exact (paced_runAt ⟨grow, spare⟩ ⟨delivery, p⟩ answers).prefix_waits
    · intro delivery spare answers
      exact (paced_runAt ⟨grow, spare⟩ ⟨delivery, p⟩ answers).alternates
    · intro delivery spare spare' answers
      exact runAt_spare ⟨grow, spare'⟩ spare ⟨delivery, p⟩ answers
  · exact (Trail.runAt_ofPolicy ⟨delivery, p⟩ answers).symm

def RetryConfig.most : RetryConfig where
  maxAttempts := 4294967295
  initialIntervalMs := 1
  multiplier := Binary.ofNat .single 2
  maxIntervalMs := 18446744073709551615

def RetryPolicy.most : RetryPolicy where
  maxAttempts := 4294967295
  initialInterval := .ofMillis 1
  multiplier := Binary.ofNat .single 2
  maxInterval := .ofMillis 18446744073709551615
  maxAttempts_pos := by decide
  initial_le_max := by decide

theorem RetryPolicy.waitsAsPlanned_most : RetryConfig.most.toPolicy? = .ok .most ∧
    (∀ grow, WaitsAsPlanned .most .most grow) ∧
    ∀ delivery answers, Trail.run ⟨delivery, .most⟩ answers =
      Trail.runAt ⟨RetryPolicy.most.grow, RetryPolicy.most.initialInterval⟩
        ⟨delivery, .most⟩ answers :=
  ⟨rfl, waitsAsPlanned_of_toPolicy? rfl⟩

end OutcomeRelay
