import OutcomeRelay.Proofs.DeliveryTrail

/-!
The whole life of a delivery, whatever its handler and the broker do: it is invoked until an
invocation succeeds or attempts run out, and then settled by one call. A delivery that is given up
reaches recovery as it came, with the number of its invocations and the last failure.
-/

namespace OutcomeRelay.DeliveryRun

/-- What surrounds a run: the result of each invocation, the first at zero, and the broker's answer
to each call. -/
structure Surroundings where
  handler : Nat → HandlerResult
  acker : AckerCall → Except BusError Unit

namespace Surroundings

variable (env : Surroundings) (job : Job)

def answer (t : Trail) : Answer :=
  match t.phase, t.phase.call? with
  | .handling _, _ => .handler (env.handler t.results.length)
  | _, some c => .broker (env.acker c)
  | _, none => .elapsed

def run : Nat → Trail
  | 0 => Trail.begin job
  | n + 1 => ((run n).step job (env.answer (run n))).getD (run n)

end Surroundings

namespace Trail

def IsFinished (t : Trail) : Prop :=
  ∃ outcome, t.phase = .finished outcome

structure Follows (t : Trail) (env : Surroundings) : Prop where
  results : t.results = (List.range t.results.length).map env.handler
  answers : ∀ c a x, Event.settled c a x ∈ t.events → a = env.acker c

end Trail

section Steps

variable {job : Job} {env : Surroundings} {t t' : Trail}

theorem Stage.events_length (h : Stage job t) :
    t.IsFinished ∨ t.events.length < 2 * job.maxAttempts := by
  cases h with
  | handling _ _ left =>
    right
    rw [Job.length_rounds]
    omega
  | waiting _ _ _ left | acking _ _ left | exhausted _ _ _ left =>
    right
    rw [List.length_append, Job.length_rounds, List.length_singleton]
    omega
  | undecodable => exact .inr (Nat.mul_pos (by decide) job.policy.maxAttempts_pos)
  | acked a => cases a <;> exact .inl ⟨_, rfl⟩
  | discarded => exact .inl ⟨_, rfl⟩
  | deadLettered => exact .inl ⟨_, rfl⟩

theorem Trail.exists_step (job : Job) (env : Surroundings) (t : Trail) (h : ¬ t.IsFinished) :
    ∃ e p, t.step job (env.answer t) = some ⟨p, t.events ++ [e]⟩ := by
  obtain ⟨phase, events⟩ := t
  cases phase with
  | finished o => exact absurd ⟨o, rfl⟩ h
  | _ => exact ⟨_, _, rfl⟩

theorem Trail.step_of_finished (h : t.IsFinished) (a : Answer) : t.step job a = none := by
  obtain ⟨o, ho⟩ := h
  simp only [Trail.step, ho, Phase.answer, Option.map_none]

theorem Trail.Follows.step (h : t.Follows env) (hs : t.step job (env.answer t) = some t') :
    t'.Follows env := by
  obtain ⟨phase, events⟩ := t
  obtain ⟨hresults, hanswers⟩ := h
  cases phase with
  | handling p =>
    simp only [Trail.step, Surroundings.answer, Phase.answer, Option.map_some,
      Option.some.injEq] at hs
    subst hs
    refine ⟨?_, by simpa using hanswers⟩
    rw [Trail.results_concat _ (.handling p)]
    simp only [Event.result?, Option.toList_some, List.length_append, List.length_singleton,
      List.range_succ, List.map_append, ← hresults]
    rfl
  | finished o => simp [Trail.step, Phase.answer] at hs
  | waiting d p | acking n | rejecting r =>
    simp only [Trail.step, Surroundings.answer, Phase.answer, Phase.call?, Option.map_some,
      Option.some.injEq] at hs
    subst hs
    refine ⟨?_, ?_⟩
    · rw [Trail.results_concat]
      simpa only [Event.result?, Option.toList_none, List.append_nil] using hresults
    · intro c a x ha
      rcases List.mem_append.mp ha with ha | ha
      · exact hanswers c a x ha
      · grind

end Steps

section Runs

variable (job : Job) (env : Surroundings)

theorem run_stage (n : Nat) : Stage job (env.run job n) := by
  induction n with
  | zero => exact Stage.begin job
  | succ n ih =>
    unfold Surroundings.run
    cases hs : (env.run job n).step job (env.answer (env.run job n)) with
    | none => exact ih
    | some t => exact ih.step hs

theorem run_follows (n : Nat) : (env.run job n).Follows env := by
  induction n with
  | zero =>
    exact ⟨rfl, by simp [Surroundings.run, Trail.begin]⟩
  | succ n ih =>
    unfold Surroundings.run
    cases hs : (env.run job n).step job (env.answer (env.run job n)) with
    | none => exact ih
    | some t => exact ih.step hs

theorem run_events_prefix_succ (n : Nat) :
    (env.run job n).events <+: (env.run job (n + 1)).events := by
  conv_rhs => rw [Surroundings.run]
  by_cases hfin : (env.run job n).IsFinished
  · rw [Trail.step_of_finished hfin]
    exact List.prefix_rfl
  · obtain ⟨e, p, hs⟩ := Trail.exists_step job env _ hfin
    rw [hs]
    exact List.prefix_append _ _

theorem run_of_finished {n : Nat} (h : (env.run job n).IsFinished) (m : Nat) :
    env.run job (n + m) = env.run job n := by
  induction m with
  | zero => rfl
  | succ m ih =>
    rw [← Nat.add_assoc, Surroundings.run, ih, Trail.step_of_finished h, Option.getD_none]

theorem run_events_prefix {n m : Nat} (h : n ≤ m) :
    (env.run job n).events <+: (env.run job m).events := by
  induction h with
  | refl => exact List.prefix_rfl
  | step _ ih => exact ih.trans (run_events_prefix_succ job env _)

theorem run_events_length (n : Nat) :
    (env.run job n).IsFinished ∨ (env.run job n).events.length = n := by
  induction n with
  | zero => exact .inr rfl
  | succ n ih =>
    by_cases hfin : (env.run job n).IsFinished
    · exact .inl (run_of_finished job env hfin 1 ▸ hfin)
    · have hlen := ih.resolve_left hfin
      obtain ⟨e, p, hs⟩ := Trail.exists_step job env _ hfin
      right
      rw [Surroundings.run, hs, Option.getD_some, List.length_append, hlen, List.length_singleton]

theorem run_finished : (env.run job (2 * job.maxAttempts)).IsFinished := by
  rcases run_events_length job env (2 * job.maxAttempts) with hfin | hlen
  · exact hfin
  · exact (run_stage job env _).events_length.resolve_right (by omega)

end Runs

theorem results_split {env : Surroundings} {rs : List HandlerResult} {r : HandlerResult}
    (h : rs ++ [r] = (List.range (rs ++ [r]).length).map env.handler) :
    rs = (List.range rs.length).map env.handler ∧ r = env.handler rs.length := by
  rw [List.length_append, List.length_singleton, List.range_succ, List.map_append] at h
  obtain ⟨hrs, hr⟩ := List.append_inj' h rfl
  exact ⟨hrs, by simpa using hr⟩

theorem ne_done_of_prefix {env : Surroundings} {rs : List HandlerResult}
    (hrs : rs = (List.range rs.length).map env.handler) (failed : ∀ r ∈ rs, r ≠ .done) :
    ∀ i < rs.length, env.handler i ≠ .done := by
  intro i hi
  refine failed _ ?_
  rw [hrs]
  exact List.mem_map.mpr ⟨i, List.mem_range.mpr hi, rfl⟩

def causeOfBody : DecodeError → List String
  | .json c => ["Message body is not valid JSON: " ++ c.text, c.text]
  | .notAnObject => ["Message body is JSON but not an object"]

def causeOf : HandlerResult → List String
  | .done => []
  | .failed e => e.text :: e.sources
  | .panicked m => ["Handler panicked: " ++ m.getD "non-string panic payload"]

theorem chain_eq_causeOfBody (e : DecodeError) : e.chain = causeOfBody e := by
  cases e with
  | json c =>
    have hmessage : (DecodeError.json c).message = "Message body is not valid JSON: " ++ c.text :=
      rfl
    rw [DecodeError.chain, hmessage, causeOfBody]
  | notAnObject => rfl

theorem texts_eq_causeOf {r : HandlerResult} {e : ErrorChain} (h : r.failure? = some e) :
    e.texts = causeOf r := by
  cases r <;> cases h <;> rfl

structure Recovers (job : Job) (n : Nat) (chain : List String) (answer : Except BusError Unit)
    (given : Reject) (record : DeadLetterRecord) : Prop where
  body : given.body = job.delivery.body
  cause : given.chain = chain
  context : given.context = {
    queue := job.delivery.queue
    routingKey := job.delivery.routingKey
    tag := job.delivery.tag
    messageId := job.delivery.messageId
    redelivered := job.delivery.redelivered
    deathCount := job.delivery.deathCount
    retryCount := some n }
  record : record = {
    queue := job.delivery.queue
    routingKey := job.delivery.routingKey
    messageId := job.delivery.messageId
    retryCount := n
    body := job.delivery.body
    causeChain := chain
    rejected := answer.isOk }

def GivenUp (job : Job) (env : Surroundings) (n : Nat) (chain : List String) (e : Event) : Prop :=
  ∃ given record, e = .settled (.reject false) (env.acker (.reject false)) (some (given, record)) ∧
    Recovers job n chain (env.acker (.reject false)) given record

theorem recovers_recovery (job : Job) (n : Nat) (chain : List String)
    (answer : Except BusError Unit) : Recovers job n chain answer (job.reject n chain)
      ((job.reject n chain).rejected answer).2.1 := by
  refine ⟨rfl, rfl, rfl, ?_⟩
  cases answer <;> rfl

theorem givenUp_recovery (job : Job) (env : Surroundings) (n : Nat) (chain : List String) :
    GivenUp job env n chain (job.recovery n chain (env.acker (.reject false))) :=
  ⟨_, _, rfl, recovers_recovery job n chain _⟩

/-- What a run that is over has done. A body that is no message is given up at once. Any other
delivery was invoked `k + 1` times, where the last of these invocations is the first that succeeds
or the last that is allowed, with one wait between two of them, and then acknowledged or given up.
The broker was called once.
-/
def Settled (job : Job) (env : Surroundings) (t : Trail) (outcome : DeliveryOutcome) : Prop :=
  match PaymentMessage.decode job.delivery.body with
  | .error e =>
    ∃ settlement, t.events = [settlement] ∧ t.calls = [.reject false] ∧
      GivenUp job env 0 (causeOfBody e) settlement ∧ outcome = .deadLettered 0
  | .ok fields =>
    ∃ k < job.maxAttempts, (∀ i < k, env.handler i ≠ .done) ∧
      (env.handler k ≠ .done → k + 1 = job.maxAttempts) ∧
      ∃ settlement,
        t.events = job.rounds fields ((List.range k).map env.handler) ++
          [.invoked (job.message fields (k + 1)) (env.handler k), settlement] ∧
        if env.handler k = .done then
          settlement = .settled .ack (env.acker .ack) none ∧ t.calls = [.ack] ∧
            outcome = match env.acker .ack with
              | .ok _ => .acked (k + 1)
              | .error _ => .ackFailed (k + 1)
        else
          GivenUp job env job.maxAttempts (causeOf (env.handler k)) settlement ∧
            t.calls = [.reject false] ∧ outcome = .deadLettered job.maxAttempts

theorem calls_rounds_append (job : Job) (fields : MessageFields) (rs : List HandlerResult)
    (m : PaymentMessage) (r : HandlerResult) (p : Phase) (e : Event) :
    (⟨p, job.rounds fields rs ++ [.invoked m r, e]⟩ : Trail).calls = e.call?.toList := by
  rw [Trail.calls, List.filterMap_append, Job.calls_rounds]
  cases e <;> rfl

theorem Stage.settled {job : Job} {env : Surroundings} {t : Trail} {outcome : DeliveryOutcome}
    (h : Stage job t) (hf : t.Follows env) (hphase : t.phase = .finished outcome) :
    Settled job env t outcome := by
  unfold Settled
  cases h with
  | handling | waiting | acking | undecodable | exhausted => cases hphase
  | @discarded e a refused =>
    obtain rfl := hf.answers _ a _ (List.mem_singleton.mpr rfl)
    cases hphase
    rw [refused]
    dsimp only
    rw [← chain_eq_causeOfBody]
    exact ⟨_, rfl, rfl, givenUp_recovery job env 0 e.chain, rfl⟩
  | @acked fields rs a decoded failed left =>
    obtain rfl := hf.answers .ack a none (by simp)
    have hresults : (⟨.acking 0, job.rounds fields rs ++
        [.invoked (job.message fields (rs.length + 1)) .done,
          .settled .ack (env.acker .ack) none]⟩ : Trail).results = rs ++ [.done] := by
      simp [Trail.results, Job.results_rounds, Event.result?, List.filterMap_cons]
    obtain ⟨hrs, hdone⟩ := results_split (hresults ▸ hf.results)
    rw [decoded]
    refine ⟨rs.length, left, ne_done_of_prefix hrs failed, fun h => absurd hdone.symm h,
      .settled .ack (env.acker .ack) none, by rw [← hrs, ← hdone], ?_⟩
    rw [if_pos hdone.symm]
    refine ⟨rfl, calls_rounds_append _ _ _ _ _ _ _, ?_⟩
    cases ha : env.acker .ack <;> rw [ha] at hphase <;> cases hphase <;> rfl
  | @deadLettered fields rs r e a decoded failed failure last =>
    obtain rfl := hf.answers _ a _ (List.mem_append_right _ (.tail _ (.head _)))
    have hresults : (⟨.acking 0, job.rounds fields rs ++
        [.invoked (job.message fields job.maxAttempts) r, job.recovery job.maxAttempts e.texts
          (env.acker (.reject false))]⟩ : Trail).results = rs ++ [r] := by
      simp [Trail.results, Job.results_rounds, Event.result?, Job.recovery, List.filterMap_cons]
    obtain ⟨hrs, hr⟩ := results_split (hresults ▸ hf.results)
    have hfailed : env.handler rs.length ≠ .done := by
      rw [← hr]
      rintro rfl
      cases failure
    cases hphase
    rw [decoded]
    refine ⟨rs.length, by omega, ne_done_of_prefix hrs failed, fun _ => last,
      job.recovery job.maxAttempts e.texts (env.acker (.reject false)),
      by rw [← hrs, ← hr, last], ?_⟩
    rw [if_neg hfailed, ← hr, ← texts_eq_causeOf failure]
    exact ⟨givenUp_recovery job env _ _, calls_rounds_append _ _ _ _ _ _ _, rfl⟩

/-- Every delivery ends as `Settled` says, and no run does anything else on the way. -/
theorem lifecycle_of_delivery (job : Job) (env : Surroundings) :
    ∃ m outcome, (env.run job m).phase = .finished outcome ∧
      (∀ n, (env.run job n).events <+: (env.run job m).events) ∧
      Settled job env (env.run job m) outcome := by
  obtain ⟨outcome, hphase⟩ := run_finished job env
  -- an attempt takes at most two answers, of the handler and of time or the broker
  refine ⟨2 * job.maxAttempts, outcome, hphase, fun n => ?_,
    (run_stage job env _).settled (run_follows job env _) hphase⟩
  rcases Nat.le_total n (2 * job.maxAttempts) with hn | hn
  · exact run_events_prefix job env hn
  · obtain ⟨m, rfl⟩ := Nat.exists_eq_add_of_le hn
    exact (run_of_finished job env ⟨outcome, hphase⟩ m).symm ▸ List.prefix_rfl

end OutcomeRelay.DeliveryRun
