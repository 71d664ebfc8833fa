import OutcomeRelay.Proofs.RelayStations

/-!
What a station leaves behind. However a run went, a worker that has stopped holds no message, and
each delivery that it took is settled or back in its queue, as its counts say.
-/

namespace OutcomeRelay.Relay

open Bus Broker DeliveryRun

structure InOrder (r : Relay) : Prop where
  ledger : Ledger r
  roster : Roster r

theorem inOrder_run (reserved : List String) (moves : List Move) :
    InOrder (({ reserved } : Relay).run moves) := by
  refine run_induction (fun r r' h hturn => ?_) ⟨Ledger.init reserved, Roster.init reserved⟩ moves
  exact ⟨h.ledger.course hturn.reserved hturn.course, h.roster.turn h.ledger hturn⟩

def Task.EndedAs (h : History) (t : Task) : DeliveryEnd → Prop
  | .settled (.acked _) => t.Accepted h
  | .settled (.deadLettered _) => t.Refused h ∨ t.CameBack h
  | .settled (.ackFailed _) => t.CameBack h
  | .panicked _ | .cutOff =>
    t.CameBack h ∧ ∀ e ∈ h.entries, e.op.delivery? ≠ some (t.queue, t.tag)

structure LeftClean (r : Relay) (k : Nat) (st : Station) : Prop where
  unheld : ∀ id ∈ st.opened, ∀ n, ∀ g ∈ r.history.broker.heldMessages n, g.consumer ≠ id
  ended : ∀ t ∈ r.tasks, t.station = k → ∃ e, t.ending = some e ∧ t.EndedAs r.history e
  total : st.worker.summary.total = r.tasks.countP fun t => t.station = k
  counts : st.worker.summary.Counts (endings r.tasks k)

theorem Task.Settles.unique {t : Task} {op op' : Op} {a a' : Except BusError Unit}
    (h : t.Settles op a) (h' : t.Settles op' a') : op = op' ∧ a = a' := by
  cases h with
  | acked events =>
    cases h' with
    | acked events' =>
      cases (List.append_inj' (events.symm.trans events') rfl).2
      exact ⟨rfl, rfl⟩
    | rejected events' => cases (List.append_inj' (events.symm.trans events') rfl).2
  | rejected events =>
    cases h' with
    | acked events' => cases (List.append_inj' (events.symm.trans events') rfl).2
    | rejected events' =>
      cases (List.append_inj' (events.symm.trans events') rfl).2
      exact ⟨rfl, rfl⟩

theorem Task.settles_of_finished {t : Task} (hs : Stage t.job t.trail) {o : DeliveryOutcome}
    (ho : t.trail.phase = .finished o) :
    (∃ n a, (DeliveryRun.acked n a).1 = .finished o ∧ t.Settles (.ack t.queue t.tag) a) ∨
      ∃ n a, o = .deadLettered n ∧ t.Settles (.reject t.queue t.tag false) a := by
  obtain ⟨station, consumer, job, trail, ending⟩ := t
  dsimp only at hs ho
  cases hs with
  | handling | waiting | acking | undecodable | exhausted => cases ho
  | acked a => exact .inl ⟨_, a, ho, .acked (List.append_assoc _ [_] [_]).symm⟩
  | @discarded e a =>
    cases ho
    exact .inr ⟨0, a, rfl, .rejected (List.nil_append [job.recovery 0 e.chain a]).symm⟩
  | @deadLettered fields rs r e a =>
    cases ho
    exact .inr ⟨job.maxAttempts, a, rfl,
      .rejected (List.append_assoc _ [_] [job.recovery job.maxAttempts e.texts a]).symm⟩

inductive Task.EndedBy (t : Task) : DeliveryEnd → Prop where
  | acked {n : Nat} (settles : t.Settles (.ack t.queue t.tag) (.ok ())) :
      EndedBy t (.settled (.acked n))
  | ackFailed {n : Nat} {x : BusError} (settles : t.Settles (.ack t.queue t.tag) (.error x)) :
      EndedBy t (.settled (.ackFailed n))
  | deadLettered {n : Nat} {a : Except BusError Unit}
      (settles : t.Settles (.reject t.queue t.tag false) a) :
      EndedBy t (.settled (.deadLettered n))
  | panicked {m : String} (never : ∀ op a, ¬ t.Settles op a) : EndedBy t (.panicked m)
  | cutOff (never : ∀ op a, ¬ t.Settles op a) : EndedBy t .cutOff

namespace Task.Sound

variable {h : History} {t : Task}

theorem settles_of_reply (ht : t.Sound h) {e : Entry} (he : e ∈ h.entries)
    (hdelivery : e.op.delivery? = some (t.queue, t.tag)) {a : Except BusError Unit}
    (hreply : e.reply = .ofResult a) : t.Settles e.op a := by
  obtain ⟨-, a', hanswer, hs⟩ := ht.answered e he hdelivery
  rw [hreply] at hanswer
  cases a <;> cases a' <;> cases hanswer
  · exact hs
  · exact hs

theorem settles_of_accepted (ht : t.Sound h) (ha : t.Accepted h) :
    t.Settles (.ack t.queue t.tag) (.ok ()) := by
  obtain ⟨e, he, hop, hreply⟩ := ha
  have hs := ht.settles_of_reply he (by rw [hop]; rfl) (a := .ok ()) hreply
  exact hop ▸ hs

theorem settles_of_refused (ht : t.Sound h) (hr : t.Refused h) :
    t.Settles (.reject t.queue t.tag false) (.ok ()) := by
  obtain ⟨e, he, hop, hreply⟩ := hr
  have hs := ht.settles_of_reply he (by rw [hop]; rfl) (a := .ok ()) hreply
  exact hop ▸ hs

theorem endedBy (ht : t.Sound h) {e : DeliveryEnd} (he : t.ending = some e) : t.EndedBy e := by
  have hunsettled : (∀ o, e ≠ .settled o) → ∀ op a, ¬ t.Settles op a := fun hne op a hs => by
    obtain ⟨o, ho⟩ := hs.finished ht.stage
    rw [(ht.ending o).mpr ho] at he
    exact hne o (Option.some.inj he).symm
  cases e with
  | settled o =>
    rcases settles_of_finished ht.stage ((ht.ending o).mp he) with ⟨n, a, ho, hs⟩ | ⟨n, a, rfl, hs⟩
    · cases a <;> cases ho
      · exact .ackFailed hs
      · exact .acked hs
    · exact .deadLettered hs
  | panicked => exact .panicked (hunsettled nofun)
  | cutOff => exact .cutOff (hunsettled nofun)

theorem endedAs (ht : t.Sound h) (hheld : ¬ t.IsHeld h) {e : DeliveryEnd}
    (he : t.ending = some e) : t.EndedAs h e := by
  -- an answer of the broker is in the log, and the log has no other for this delivery
  have hplaced := ht.placed.resolve_left hheld
  cases ht.endedBy he with
  | acked hs =>
    obtain ⟨x, hx, hop, hreply⟩ := ht.asked _ _ hs
    exact ⟨x, hx, hop, hreply⟩
  | ackFailed hs =>
    rcases hplaced with ha | hr | hback
    · cases (hs.unique (ht.settles_of_accepted ha)).2
    · cases (hs.unique (ht.settles_of_refused hr)).1
    · exact hback
  | deadLettered hs =>
    rcases hplaced with ha | hplaced
    · cases (hs.unique (ht.settles_of_accepted ha)).1
    · exact hplaced
  | panicked hnone | cutOff hnone =>
    refine ⟨?_, fun x hx hdelivery => ?_⟩
    · rcases hplaced with ha | hr | hback
      · exact absurd (ht.settles_of_accepted ha) (hnone _ _)
      · exact absurd (ht.settles_of_refused hr) (hnone _ _)
      · exact hback
    · obtain ⟨-, a, -, hs⟩ := ht.answered x hx hdelivery
      exact hnone _ _ hs

end Task.Sound

theorem exists_ending {tasks : List Task} {k : Nat} {t : Task} (h : ∀ i, ¬ IsOpen tasks k i)
    (ht : t ∈ tasks) (hk : t.station = k) : ∃ e, t.ending = some e := by
  cases he : t.ending with
  | some e => exact ⟨e, rfl⟩
  | none =>
    obtain ⟨i, hi⟩ := List.mem_iff_getElem?.mp ht
    exact absurd ⟨t, hi, hk, he⟩ (h i)

theorem length_endings {tasks : List Task} {k : Nat} (h : ∀ i, ¬ IsOpen tasks k i) :
    (endings tasks k).length = tasks.countP fun t => t.station = k := by
  have hended : ∀ t ∈ tasks, t.station = k → ∃ e, t.ending = some e := fun t => exists_ending h
  clear h
  induction tasks with
  | nil => rfl
  | cons t tasks ih =>
    have hrest := ih fun u hu => hended u (.tail _ hu)
    unfold endings at hrest ⊢
    rw [List.filterMap_cons, List.countP_cons]
    by_cases hk : t.station = k
    · obtain ⟨e, he⟩ := hended t (.head _) hk
      simp [hk, hrest, he]
    · simp [hk, hrest]

theorem Tends.not_isOpen {tasks : List Task} {k : Nat} {w : Worker} (h : Tends tasks k w)
    (stopped : w.phase = .stopped) (i : Nat) : ¬ IsOpen tasks k i := by
  intro hi
  have hrunning := (h.running i).mpr hi
  rw [(h.accounts.idle (.inr stopped)).1] at hrunning
  cases hrunning

/-- A worker that has stopped left nothing in doubt, whatever it and all others did. -/
theorem leftClean_of_stopped (reserved : List String) (moves : List Move) (k : Nat) (st : Station)
    (here : (({ reserved } : Relay).run moves).stations[k]? = some st)
    (stopped : st.worker.phase = .stopped) : LeftClean (({ reserved } : Relay).run moves) k st := by
  obtain ⟨hl, hr⟩ := inOrder_run reserved moves
  generalize ({ reserved } : Relay).run moves = r at here hl hr
  have hkeeps := hr.keeps k st here
  have htends := hr.tends k st here
  have hcounts := htends.accounts.counts stopped
  have hnone := htends.not_isOpen stopped
  have hunheld : ∀ id ∈ st.opened, ∀ n, ∀ g ∈ r.history.broker.heldMessages n, g.consumer ≠ id := by
    rintro id hid n g hg rfl
    exact (hkeeps.holds n g hg hid).2 stopped
  refine ⟨hunheld, fun t ht hk => ?_, ?_, hcounts⟩
  · have hsound := hl.sound t ht
    have hheld : ¬ t.IsHeld r.history := by
      rintro ⟨g, hg, htag⟩
      obtain ⟨st', hst', hmem, -⟩ := hr.owner t ht
      rw [hk, here] at hst'
      cases hst'
      exact hunheld _ hmem _ g hg (hsound.faithful g hg htag).1
    obtain ⟨e, he⟩ := exists_ending hnone ht hk
    exact ⟨e, he, hsound.endedAs hheld he⟩
  · rw [hcounts.total, length_endings hnone]

/-- A worker takes one delivery and is told to shut down while it is being handled. -/
def cutOffRun : List Move := [
  .client (.declareEntity (.exchange ⟨"x", .direct, true⟩)),
  .client (.declareEntity (.queue ⟨"q", true, none⟩)),
  .client (.declareEntity (.binding ⟨"q", "x", "k"⟩)),
  .client (.send ⟨"x", "k", [], "m", "", false⟩),
  .hire ⟨"q", (), {}, .standard⟩ 0,
  .act 0 (.signal .look), .act 0 (.signal .slotFree), .act 0 .poll, .stop 0,
  .act 0 (.signal .look), .act 0 .cancel, .act 0 (.signal .graceElapsed), .act 0 (.cut 0),
  .act 0 (.signal .join), .act 0 (.signal .drained), .act 0 .close]

theorem leftClean_cutOffRun : ∃ st, (({} : Relay).run cutOffRun).stations[0]? = some st ∧
    st.worker.phase = .stopped ∧ st.worker.summary.aborted = 1 ∧
    LeftClean (({} : Relay).run cutOffRun) 0 st := by
  have hstation : (({} : Relay).run cutOffRun).stations[0]?.map
      (fun st => (st.worker.phase, st.worker.summary.aborted)) = some (.stopped, 1) := by decide
  obtain ⟨st, here, hst⟩ := Option.map_eq_some_iff.mp hstation
  obtain ⟨stopped, haborted⟩ := Prod.mk.inj hst
  exact ⟨st, here, stopped, haborted, leftClean_of_stopped [] cutOffRun 0 st here stopped⟩

end OutcomeRelay.Relay
