import OutcomeRelay.Worker.Basic

/-!
The counts of a worker. Each end of a delivery is counted once, as what it is, by the time that the
worker closes its consumer.
-/

namespace OutcomeRelay

namespace DeliveryEnd

def isAcked : DeliveryEnd → Bool
  | .settled (.acked _) => true
  | _ => false

def isDeadLettered : DeliveryEnd → Bool
  | .settled (.deadLettered _) => true
  | _ => false

def isAckFailed : DeliveryEnd → Bool
  | .settled (.ackFailed _) => true
  | _ => false

def isAborted : DeliveryEnd → Bool
  | .panicked _ | .cutOff => true
  | _ => false

end DeliveryEnd

namespace WorkerSummary

structure Counts (s : WorkerSummary) (ends : List DeliveryEnd) : Prop where
  acked : s.acked = ends.countP DeliveryEnd.isAcked
  deadLettered : s.deadLettered = ends.countP DeliveryEnd.isDeadLettered
  ackFailed : s.ackFailed = ends.countP DeliveryEnd.isAckFailed
  aborted : s.aborted = ends.countP DeliveryEnd.isAborted

namespace Counts

variable {s : WorkerSummary} {ends ends' : List DeliveryEnd}

theorem perm (h : s.Counts ends) (hperm : ends.Perm ends') : s.Counts ends' :=
  ⟨h.acked.trans (hperm.countP_eq _), h.deadLettered.trans (hperm.countP_eq _),
    h.ackFailed.trans (hperm.countP_eq _), h.aborted.trans (hperm.countP_eq _)⟩

theorem record (h : s.Counts ends) (e : DeliveryEnd) : (s.record e).Counts (ends ++ [e]) := by
  obtain ⟨hacked, hdead, hfailed, haborted⟩ := h
  rcases e with o | m | _
  · cases o <;> constructor <;>
      simp [WorkerSummary.record, List.countP_append, hacked, hdead, hfailed, haborted,
        DeliveryEnd.isAcked, DeliveryEnd.isDeadLettered, DeliveryEnd.isAckFailed,
        DeliveryEnd.isAborted]
  · constructor <;>
      simp [WorkerSummary.record, List.countP_append, hacked, hdead, hfailed, haborted,
        DeliveryEnd.isAcked, DeliveryEnd.isDeadLettered, DeliveryEnd.isAckFailed,
        DeliveryEnd.isAborted]
  · constructor <;>
      simp [WorkerSummary.record, List.countP_append, hacked, hdead, hfailed, haborted,
        DeliveryEnd.isAcked, DeliveryEnd.isDeadLettered, DeliveryEnd.isAckFailed,
        DeliveryEnd.isAborted]

theorem total (h : s.Counts ends) : s.total = ends.length := by
  rw [WorkerSummary.total, h.acked, h.deadLettered, h.ackFailed, h.aborted]
  clear h
  induction ends with
  | nil => rfl
  | cons e ends ih =>
    simp only [List.countP_cons, List.length_cons] at ih ⊢
    rcases e with o | m | _
    · cases o <;> simp [DeliveryEnd.isAcked, DeliveryEnd.isDeadLettered, DeliveryEnd.isAckFailed,
        DeliveryEnd.isAborted] <;> omega
    · simp [DeliveryEnd.isAcked, DeliveryEnd.isDeadLettered, DeliveryEnd.isAckFailed,
        DeliveryEnd.isAborted]
      omega
    · simp [DeliveryEnd.isAcked, DeliveryEnd.isDeadLettered, DeliveryEnd.isAckFailed,
        DeliveryEnd.isAborted]
      omega

end Counts
end WorkerSummary

namespace Worker

def Input.IsInner : Input → Prop
  | .delivered _ | .taskEnded .. | .closed _ => False
  | _ => True

structure Inner (w w' : Worker) : Prop where
  queue : w'.queue = w.queue
  running : w'.running = w.running
  going : w'.phase ≠ .stopped
  idle : w'.phase = .closing → w'.running = [] ∧ w'.ended = []
  counted : (w'.ended = w.ended ∧ ∃ n, w'.summary = { w.summary with reconnects := n }) ∨
    ∃ id e, w.ended = (id, e) :: w'.ended ∧ w'.summary = w.summary.record e

variable {w w' : Worker} {log : List Log.Entry}

theorem inner_of_phase {p : Phase} (hp : p ≠ .stopped)
    (hidle : p = .closing → w.running = [] ∧ w.ended = []) : Inner w { w with phase := p } :=
  ⟨rfl, rfl, hp, hidle, .inl ⟨rfl, w.summary.reconnects, rfl⟩⟩

theorem inner_backOff (w : Worker) (n : Nat) (waits : Backoff) : Inner w (w.backOff n waits).1 := by
  unfold backOff
  split
  all_goals exact inner_of_phase nofun nofun

theorem inner_join (hstopped : w.phase ≠ .stopped) (hclosing : w.phase ≠ .closing)
    (h : w.join = some (w', log)) : Inner w w' := by
  unfold join at h
  split at h
  · cases h
  · next id e rest hended =>
    cases h
    exact ⟨rfl, rfl, hstopped, fun hp => absurd hp hclosing, .inr ⟨id, e, hended, rfl⟩⟩

theorem step_inner {input : Input} (h : w.step input = some (w', log)) (hinner : input.IsInner) :
    Inner w w' := by
  unfold step at h
  split at h
  case h_1 hp | h_2 hp | h_3 hp => exact inner_join (by simp [hp]) (by simp [hp]) h
  case h_4 =>
    split at h
    · cases h
    · split at h <;> cases h <;> exact inner_of_phase nofun nofun
  case h_5 | h_6 | h_7 =>
    cases h
    exact inner_of_phase nofun nofun
  case h_8 =>
    split at h
    · cases h
      exact inner_of_phase nofun nofun
    · cases h
  case h_9 => exact hinner.elim
  case h_10 =>
    cases h
    exact inner_backOff w _ _
  case h_11 =>
    split at h <;> cases h
    · exact inner_of_phase nofun nofun
    · exact inner_backOff w _ _
  case h_12 =>
    cases h
    split <;> exact inner_of_phase nofun nofun
  case h_13 =>
    cases h
    exact inner_of_phase nofun nofun
  case h_14 =>
    cases h
    exact inner_backOff w _ _
  case h_15 =>
    cases h
    exact ⟨rfl, rfl, nofun, nofun, .inl ⟨rfl, _, rfl⟩⟩
  case h_16 =>
    cases h
    exact inner_of_phase nofun nofun
  case h_17 | h_18 =>
    split at h
    · next hidle =>
      cases h
      exact inner_of_phase nofun fun _ => hidle
    · cases h
  case h_19 =>
    split at h
    · cases h
    · cases h
      exact inner_of_phase nofun nofun
  case h_20 => exact hinner.elim
  case h_21 => exact hinner.elim
  case h_22 => cases h

theorem step_delivered {id : Nat} (h : w.step (.delivered id) = some (w', log)) :
    w.phase = .receiving ∧ w' = { w with phase := .gathering, running := w.running ++ [id] } := by
  unfold step at h
  split at h <;> simp_all

theorem step_taskEnded {id : Nat} {e : DeliveryEnd}
    (h : w.step (.taskEnded id e) = some (w', log)) : id ∈ w.running ∧ w' = w.endTask id e := by
  unfold step at h
  split at h <;> simp_all

theorem step_closed {r : Except BusError Unit} (h : w.step (.closed r) = some (w', log)) :
    w.phase = .closing ∧ w' = { w with phase := .stopped } := by
  unfold step at h
  split at h <;> simp_all

structure Accounts (w : Worker) (ends : List DeliveryEnd) : Prop where
  counted : ∃ joined, w.summary.Counts joined ∧ (joined ++ w.ended.map Prod.snd).Perm ends
  idle : w.phase = .closing ∨ w.phase = .stopped → w.running = [] ∧ w.ended = []

namespace Accounts

variable {ends : List DeliveryEnd}

theorem start (queue : String) (slots : Nat) (grace : Duration) :
    Accounts (.start queue slots grace) [] :=
  ⟨⟨[], ⟨rfl, rfl, rfl, rfl⟩, .refl _⟩, by simp [Worker.start]⟩

theorem perm (ha : Accounts w ends) {ends' : List DeliveryEnd} (hperm : ends.Perm ends') :
    Accounts w ends' := by
  obtain ⟨joined, hcounts, hjoined⟩ := ha.counted
  exact ⟨⟨joined, hcounts, hjoined.trans hperm⟩, ha.idle⟩

theorem inner (ha : Accounts w ends) (h : Inner w w') : Accounts w' ends := by
  refine ⟨?_, fun hp => h.idle (hp.resolve_right h.going)⟩
  obtain ⟨joined, hcounts, hperm⟩ := ha.counted
  rcases h.counted with ⟨hended, n, hsummary⟩ | ⟨id, e, hended, hsummary⟩
  · refine ⟨joined, ?_, hended ▸ hperm⟩
    rw [hsummary]
    exact ⟨hcounts.acked, hcounts.deadLettered, hcounts.ackFailed, hcounts.aborted⟩
  · refine ⟨joined ++ [e], hsummary ▸ hcounts.record e, ?_⟩
    rwa [hended, List.map_cons, ← List.singleton_append, ← List.append_assoc] at hperm

theorem delivered (ha : Accounts w ends) {id : Nat} (h : w.step (.delivered id) = some (w', log)) :
    Accounts w' ends := by
  obtain ⟨-, rfl⟩ := step_delivered h
  exact ⟨ha.counted, by simp⟩

theorem taskEnded (ha : Accounts w ends) {id : Nat} {e : DeliveryEnd}
    (h : w.step (.taskEnded id e) = some (w', log)) : Accounts w' (ends ++ [e]) := by
  obtain ⟨hid, rfl⟩ := step_taskEnded h
  refine ⟨?_, fun hp => ?_⟩
  · obtain ⟨joined, hcounts, hperm⟩ := ha.counted
    refine ⟨joined, hcounts, ?_⟩
    rw [endTask, List.map_append, ← List.append_assoc]
    exact hperm.append_right _
  · rw [(ha.idle hp).1] at hid
    cases hid

theorem closed (ha : Accounts w ends) {r : Except BusError Unit}
    (h : w.step (.closed r) = some (w', log)) : Accounts w' ends := by
  obtain ⟨hp, rfl⟩ := step_closed h
  exact ⟨ha.counted, fun _ => ha.idle (.inl hp)⟩

theorem counts (ha : Accounts w ends) (hp : w.phase = .stopped) : w.summary.Counts ends := by
  obtain ⟨joined, hcounts, hperm⟩ := ha.counted
  rw [(ha.idle (.inr hp)).2, List.map_nil, List.append_nil] at hperm
  exact hcounts.perm hperm

end Accounts
end Worker
end OutcomeRelay
