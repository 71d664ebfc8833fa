import Mathlib.Data.List.Nodup
import OutcomeRelay.Proofs.WorkerBooks
import OutcomeRelay.Worker.Dispatcher

/-!
What a worker takes in. Whatever comes from its streams, its deliveries and its handle, and in
whatever order, no more deliveries are handled at a time than there are slots, the worker goes on
with taking deliveries in until it is asked to stop, and from then on it takes one more at most.
-/

namespace OutcomeRelay

namespace Worker

def Phase.takesIn : Phase → Bool
  | .gathering | .seekingSlot | .receiving | .backingOff .. | .reopening .. | .replacing => true
  | .cancelling | .draining | .aborting | .closing | .stopped => false

def Phase.mayReceive : Phase → Bool
  | .seekingSlot | .receiving => true
  | _ => false

def Phase.Endless : Phase → Prop
  | .backingOff _ _ waits | .reopening _ waits => waits.remaining = none
  | _ => True

def Input.received? : Input → Option Nat
  | .delivered id => some id
  | _ => none

def Input.finished? : Input → Option Nat
  | .taskEnded id _ => some id
  | _ => none

structure Intake where
  worker : Worker
  requested : Bool := false
  detached : Bool := false
  heard : List Input := []

namespace Intake

inductive Event where
  | request
  | detach
  | hear (input : Input)

def taken (s : Intake) : List Nat :=
  s.heard.filterMap Input.received?

def finished (s : Intake) : List Nat :=
  s.heard.filterMap Input.finished?

def underway (s : Intake) : List Nat :=
  s.taken.filter (· ∉ s.finished)

/-- What can be heard now: of a shutdown what is the case, and of a delivery that is a new one. -/
def Fits (s : Intake) : Input → Prop
  | .look shutdown | .streamEnded shutdown | .waited shutdown => shutdown = s.requested
  | .shutdown => s.requested = true
  | .delivered id => id ∉ s.taken
  | _ => True

instance (s : Intake) (i : Input) : Decidable (s.Fits i) :=
  match i with
  | .look _ | .streamEnded _ | .waited _ | .shutdown => inferInstanceAs (Decidable (_ = _))
  | .delivered id => inferInstanceAs (Decidable (id ∉ s.taken))
  | .join | .slotFree | .streamFailed _ | .consumed _ | .replaced | .cancelled _ | .drained
  | .graceElapsed | .closed _ | .taskEnded .. => isTrue trivial

def after (s : Intake) (w : Worker) (i : Input) : Intake :=
  { s with worker := w, heard := s.heard ++ [i] }

def hear (s : Intake) (i : Input) : Option Intake :=
  if s.Fits i then (s.worker.step i).map fun w => s.after w.1 i else none

/-- Nothing is requested through a handle that was dropped. What cannot be heard does nothing. -/
def step (s : Intake) : Event → Intake
  | .request => if s.detached then s else { s with requested := true }
  | .detach => { s with detached := true }
  | .hear i => (s.hear i).getD s

def run (s : Intake) (events : List Event) : Intake :=
  events.foldl step s

end Intake

structure Turns (requested : Bool) (w w' : Worker) : Prop where
  slots : w'.slots = w.slots
  endless : w'.phase.Endless
  stays : w.phase.takesIn = true → w'.phase.takesIn = true ∨ requested = true
  room : w'.phase = .receiving → w.running.length < w.slots
  last : requested = true → w'.phase.mayReceive = true → w.phase.mayReceive = true

variable {w w' : Worker} {log : List Log.Entry} {s s' : Intake}

theorem turns_of_phase {requested : Bool} {p : Phase} (endless : p.Endless)
    (stays : w.phase.takesIn = true → p.takesIn = true ∨ requested = true)
    (last : p.mayReceive = false) : Turns requested w { w with phase := p } := by
  refine ⟨rfl, endless, stays, ?_, fun _ h => absurd (last.symm.trans h) nofun⟩
  rintro rfl
  cases last

theorem turns_backOff {requested : Bool} {n : Nat} {waits : Backoff}
    (endless : waits.remaining = none) : Turns requested w (w.backOff n waits).1 := by
  have hnext : ReconnectSchedule.consumer.nextWait? waits = some (waits.upcoming,
      ⟨Backoff.after (2 * ·) ReconnectSchedule.consumer.most waits.upcoming, none⟩) := by
    rw [ReconnectSchedule.nextWait?, Backoff.next?, endless]
  rw [backOff, hnext]
  exact turns_of_phase rfl (fun _ => .inl rfl) rfl

theorem turns_join {requested : Bool} (endless : w.phase.Endless) (hp : w.phase ≠ .receiving)
    (h : w.join = some (w', log)) : Turns requested w w' := by
  unfold join at h
  split at h <;> cases h
  exact ⟨rfl, endless, .inl, fun hr => absurd hr hp, fun _ => id⟩

theorem step_turns {i : Input} (h : s.worker.step i = some (w', log)) (hinner : i.IsInner)
    (fits : s.Fits i) (endless : s.worker.phase.Endless) : Turns s.requested s.worker w' := by
  -- one case for each line of `step`, in its order
  unfold Worker.step at h
  split at h
  case h_1 hp | h_2 hp | h_3 hp => exact turns_join endless (by simp [hp]) h
  case h_4 shutdown hp =>
    have hseen : shutdown = s.requested := fits
    split at h
    · cases h
    split at h
    · next hshutdown =>
      cases h
      exact turns_of_phase trivial (fun _ => .inr (hseen ▸ hshutdown)) rfl
    · next hshutdown =>
      cases h
      exact ⟨rfl, trivial, fun _ => .inl rfl, nofun, fun hr => absurd (hseen.trans hr) hshutdown⟩
  case h_5 | h_6 | h_7 =>
    cases h
    exact turns_of_phase trivial (fun _ => .inr fits) rfl
  case h_8 hp =>
    split at h
    · next hroom =>
      cases h
      exact ⟨rfl, trivial, fun _ => .inl rfl, fun _ => hroom, fun _ _ => by rw [hp]; rfl⟩
    · cases h
  case h_9 => exact hinner.elim
  case h_10 =>
    cases h
    exact turns_backOff rfl
  case h_11 shutdown _ =>
    have hseen : shutdown = s.requested := fits
    split at h
    · next hshutdown =>
      cases h
      exact turns_of_phase trivial (fun _ => .inr (hseen ▸ hshutdown)) rfl
    · cases h
      exact turns_backOff rfl
  case h_12 n d waits shutdown hp =>
    have hseen : shutdown = s.requested := fits
    have hwaits : waits.remaining = none := by rw [hp] at endless; exact endless
    cases h
    split
    · next hshutdown => exact turns_of_phase trivial (fun _ => .inr (hseen ▸ hshutdown)) rfl
    · exact turns_of_phase hwaits (fun _ => .inl rfl) rfl
  case h_13 =>
    cases h
    exact turns_of_phase trivial (fun _ => .inl rfl) rfl
  case h_14 hp =>
    cases h
    rw [hp] at endless
    exact turns_backOff endless
  case h_15 =>
    cases h
    exact ⟨rfl, trivial, fun _ => .inl rfl, nofun, fun _ => nofun⟩
  case h_16 hp =>
    cases h
    exact turns_of_phase trivial (by rw [hp]; nofun) rfl
  case h_17 hp | h_18 hp | h_19 hp =>
    split at h <;> cases h
    exact turns_of_phase trivial (by rw [hp]; nofun) rfl
  case h_20 => exact hinner.elim
  case h_21 => exact hinner.elim
  case h_22 => cases h

namespace Intake

theorem taken_after (s : Intake) (w : Worker) (i : Input) :
    (s.after w i).taken = s.taken ++ i.received?.toList := by
  cases h : i.received? <;> simp [taken, after, h]

theorem finished_after (s : Intake) (w : Worker) (i : Input) :
    (s.after w i).finished = s.finished ++ i.finished?.toList := by
  cases h : i.finished? <;> simp [Intake.finished, after, h]

theorem taken_after_of_none {i : Input} (h : i.received? = none) :
    (s.after w i).taken = s.taken := by
  rw [taken_after, h]
  exact List.append_nil _

theorem finished_after_of_none {i : Input} (h : i.finished? = none) :
    (s.after w i).finished = s.finished := by
  rw [finished_after, h]
  exact List.append_nil _

theorem hear_eq_some {i : Input} (h : s.hear i = some s') : s.Fits i ∧ ∃ w' log,
    s.worker.step i = some (w', log) ∧ s' = s.after w' i := by
  unfold hear at h
  split at h
  · next fits =>
    obtain ⟨⟨w', log⟩, hstep, rfl⟩ := Option.map_eq_some_iff.mp h
    exact ⟨fits, w', log, hstep, rfl⟩
  · cases h

structure Keeps (limit : Nat) (s : Intake) : Prop where
  slots : s.worker.slots = limit
  running : s.worker.running = s.underway
  distinct : s.taken.Nodup
  finished : ∀ id ∈ s.finished, id ∈ s.taken
  bounded : s.worker.running.length ≤ limit
  room : s.worker.phase = .receiving → s.worker.running.length < limit
  endless : s.worker.phase.Endless
  stays : s.worker.phase.takesIn = true ∨ s.requested = true

variable {limit : Nat}

theorem keeps_start (w : Worker) (hphase : w.phase = .gathering) (hrunning : w.running = []) :
    Keeps w.slots { worker := w } where
  slots := rfl
  running := hrunning
  distinct := .nil
  finished := nofun
  bounded := by simp [hrunning]
  room := by simp [hphase]
  endless := by rw [hphase]; trivial
  stays := by rw [hphase]; exact .inl rfl

theorem Keeps.turns {i : Input} (hk : s.Keeps limit) (received : i.received? = none)
    (finished : i.finished? = none) (hrunning : w'.running = s.worker.running)
    (hturns : Turns s.requested s.worker w') : (s.after w' i).Keeps limit where
  slots := hturns.slots.trans hk.slots
  running := by
    rw [underway, taken_after_of_none received, finished_after_of_none finished]
    exact hrunning.trans hk.running
  distinct := by
    rw [taken_after_of_none received]
    exact hk.distinct
  finished := by
    rw [taken_after_of_none received, finished_after_of_none finished]
    exact hk.finished
  bounded := hrunning ▸ hk.bounded
  room hp := by
    have hroom := hturns.room hp
    rwa [← hrunning, hk.slots] at hroom
  endless := hturns.endless
  stays := hk.stays.elim hturns.stays .inr

theorem Keeps.delivered {id : Nat} (hk : s.Keeps limit) (hp : s.worker.phase = .receiving)
    (hnew : id ∉ s.taken) : (s.after { s.worker with
      phase := .gathering, running := s.worker.running ++ [id] } (.delivered id)).Keeps limit where
  slots := hk.slots
  running := by
    have hbegun : id ∉ s.finished := fun h => hnew (hk.finished id h)
    change s.worker.running ++ [id] = _
    rw [underway, taken_after, finished_after_of_none rfl, hk.running, underway]
    simp [Input.received?, hbegun]
  distinct := by
    rw [taken_after]
    exact List.concat_eq_append ▸ hk.distinct.concat hnew
  finished := by
    rw [taken_after, finished_after_of_none rfl]
    exact fun x hx => List.mem_append_left _ (hk.finished x hx)
  bounded := by
    change (s.worker.running ++ [id]).length ≤ limit
    rw [List.length_append, List.length_singleton]
    exact hk.room hp
  room := nofun
  endless := trivial
  stays := .inl rfl

theorem Keeps.taskEnded {id : Nat} {e : DeliveryEnd} (hk : s.Keeps limit)
    (hid : id ∈ s.worker.running) :
    (s.after (s.worker.endTask id e) (.taskEnded id e)).Keeps limit := by
  have hle : (s.worker.running.erase id).length ≤ s.worker.running.length := List.length_erase_le
  have hfinished : (s.after (s.worker.endTask id e) (.taskEnded id e)).finished =
      s.finished ++ [id] := finished_after s _ _
  exact {
    slots := hk.slots
    running := by
      -- no delivery was received twice, so that erasing one filters it out
      change s.worker.running.erase id = _
      rw [underway, taken_after_of_none rfl, hfinished, hk.running, underway,
        (hk.distinct.filter _).erase_eq_filter, List.filter_filter]
      refine List.filter_congr fun x _ => Bool.eq_iff_iff.mpr ?_
      simp [and_comm]
    distinct := by
      rw [taken_after_of_none rfl]
      exact hk.distinct
    finished := by
      rw [taken_after_of_none rfl, hfinished]
      intro x hx
      rcases List.mem_append.mp hx with hx | hx
      · exact hk.finished x hx
      · rw [List.mem_singleton.mp hx]
        exact List.mem_of_mem_filter (hk.running ▸ hid)
    bounded := Nat.le_trans hle hk.bounded
    room := fun hp => Nat.lt_of_le_of_lt hle (hk.room hp)
    endless := hk.endless
    stays := hk.stays }

theorem Keeps.hear {i : Input} (hk : s.Keeps limit) (h : s.hear i = some s') : s'.Keeps limit := by
  obtain ⟨fits, w', log, hstep, rfl⟩ := hear_eq_some h
  cases i with
  | delivered id =>
    obtain ⟨hp, rfl⟩ := step_delivered hstep
    exact hk.delivered hp fits
  | taskEnded id e =>
    obtain ⟨hid, rfl⟩ := step_taskEnded hstep
    exact hk.taskEnded hid
  | closed r =>
    obtain ⟨hp, rfl⟩ := step_closed hstep
    exact hk.turns rfl rfl rfl (turns_of_phase trivial (by rw [hp]; nofun) rfl)
  | _ =>
    exact hk.turns rfl rfl (step_inner hstep trivial).running
      (step_turns hstep trivial fits hk.endless)

theorem Keeps.step (hk : s.Keeps limit) (e : Event) : (s.step e).Keeps limit := by
  cases e with
  | request =>
    change (if s.detached then s else { s with requested := true }).Keeps limit
    split
    · exact hk
    · exact { hk with stays := .inr rfl }
  | detach => exact { hk with }
  | hear i =>
    change ((s.hear i).getD s).Keeps limit
    cases h : s.hear i with
    | none => exact hk
    | some s' => exact hk.hear h

theorem Keeps.run (hk : s.Keeps limit) (events : List Event) : (s.run events).Keeps limit := by
  induction events generalizing s with
  | nil => exact hk
  | cons e events ih => exact ih (hk.step e)

theorem requested_hear {i : Input} (h : s.hear i = some s') : s'.requested = s.requested := by
  obtain ⟨-, w', log, -, rfl⟩ := hear_eq_some h
  rfl

theorem requested_step (h : s.requested = true) (e : Event) : (s.step e).requested = true := by
  cases e with
  | request =>
    change (if s.detached then s else { s with requested := true }).requested = true
    split
    · exact h
    · rfl
  | detach => exact h
  | hear i =>
    change ((s.hear i).getD s).requested = true
    cases hi : s.hear i with
    | none => exact h
    | some s' => exact (requested_hear hi).trans h

def due (s : Intake) : Nat :=
  s.taken.length + s.worker.phase.mayReceive.toNat

theorem due_after_le {i : Input} (hi : i.received? = none)
    (hlast : w'.phase.mayReceive = true → s.worker.phase.mayReceive = true) :
    (s.after w' i).due ≤ s.due := by
  have hmay : w'.phase.mayReceive.toNat ≤ s.worker.phase.mayReceive.toNat := by
    cases h : w'.phase.mayReceive with
    | false => exact Nat.zero_le _
    | true => exact Nat.le_of_eq (congrArg Bool.toNat (hlast h).symm)
  rw [due, due, taken_after_of_none hi]
  exact Nat.add_le_add_left hmay _

theorem due_hear {i : Input} (hk : s.Keeps limit) (hr : s.requested = true)
    (h : s.hear i = some s') : s'.due ≤ s.due := by
  obtain ⟨fits, w', log, hstep, rfl⟩ := hear_eq_some h
  cases i with
  | delivered id =>
    obtain ⟨hp, rfl⟩ := step_delivered hstep
    rw [due, due, taken_after, hp]
    simp [Input.received?, after, Phase.mayReceive]
  | taskEnded id e =>
    obtain ⟨-, rfl⟩ := step_taskEnded hstep
    exact due_after_le rfl fun hlast => hlast
  | closed r =>
    obtain ⟨-, rfl⟩ := step_closed hstep
    exact due_after_le rfl nofun
  | _ => exact due_after_le rfl ((step_turns hstep trivial fits hk.endless).last hr)

theorem due_step (hk : s.Keeps limit) (hr : s.requested = true) (e : Event) :
    (s.step e).due ≤ s.due := by
  cases e with
  | request =>
    change (if s.detached then s else { s with requested := true }).due ≤ s.due
    split <;> exact Nat.le_refl _
  | detach => exact Nat.le_refl _
  | hear i =>
    change ((s.hear i).getD s).due ≤ s.due
    cases h : s.hear i with
    | none => exact Nat.le_refl _
    | some s' => exact due_hear hk hr h

theorem due_run (hk : s.Keeps limit) (hr : s.requested = true) (events : List Event) :
    (s.run events).due ≤ s.due := by
  induction events generalizing s with
  | nil => exact Nat.le_refl _
  | cons e events ih =>
    exact Nat.le_trans (ih (hk.step e) (requested_step hr e)) (due_step hk hr e)

theorem taken_after_request (hk : s.Keeps limit) (hr : s.requested = true) (events : List Event) :
    (s.run events).taken.length ≤ s.taken.length + 1 := by
  have hdue := due_run hk hr events
  have hone := Bool.toNat_le s.worker.phase.mayReceive
  unfold due at hdue
  omega

theorem step_hear {i : Input} (fits : s.Fits i) (hstep : s.worker.step i = some (w', log)) :
    s.step (.hear i) = s.after w' i := by
  change (s.hear i).getD s = _
  rw [hear, if_pos fits, hstep]
  rfl

def CanTake (s : Intake) : Prop :=
  ∀ id ∉ s.taken, ∃ more, .request ∉ more ∧ (s.run more).taken = s.taken ++ [id]

theorem canTake_of_hear (i : Input) (fits : s.Fits i) (hstep : s.worker.step i = some (w', log))
    (hi : i.received? = none) (h : (s.after w' i).CanTake) : s.CanTake := by
  intro id hid
  have htaken : (s.after w' i).taken = s.taken := taken_after_of_none hi
  obtain ⟨more, hmore, hnext⟩ := h id (htaken ▸ hid)
  refine ⟨.hear i :: more, by simpa using hmore, ?_⟩
  rw [run, List.foldl_cons, step_hear fits hstep, ← htaken]
  exact hnext

theorem canTake_receiving (hp : s.worker.phase = .receiving) : s.CanTake := by
  intro id hid
  have fits : s.Fits (.delivered id) := hid
  have hstep : s.worker.step (.delivered id) = some
      ({ s.worker with phase := .gathering, running := s.worker.running ++ [id] }, []) := by
    unfold Worker.step
    rw [hp]
  refine ⟨[.hear (.delivered id)], by simp, ?_⟩
  rw [run, List.foldl_cons, List.foldl_nil, step_hear fits hstep]
  exact taken_after _ _ _

theorem canTake_slotFree (hp : s.worker.phase = .seekingSlot)
    (hroom : s.worker.running.length < s.worker.slots) : s.CanTake := by
  have hstep : s.worker.step .slotFree = some ({ s.worker with phase := .receiving }, []) := by
    unfold Worker.step
    rw [hp]
    exact if_pos hroom
  exact canTake_of_hear .slotFree trivial hstep rfl (canTake_receiving rfl)

theorem canTake_seekingSlot (hp : s.worker.phase = .seekingSlot)
    (hbounded : s.worker.running.length ≤ s.worker.slots) (hslots : 0 < s.worker.slots) :
    s.CanTake := by
  rcases Nat.lt_or_eq_of_le hbounded with hroom | hfull
  · exact canTake_slotFree hp hroom
  · obtain ⟨x, hx⟩ := List.exists_mem_of_length_pos (hfull ▸ hslots)
    have hstep : s.worker.step (.taskEnded x (.settled (.acked 1))) =
        some (s.worker.endTask x (.settled (.acked 1)), []) := by
      unfold Worker.step
      rw [hp]
      exact if_pos hx
    refine canTake_of_hear (.taskEnded x _) trivial hstep rfl (canTake_slotFree hp ?_)
    change (s.worker.running.erase x).length < s.worker.slots
    rw [List.length_erase_of_mem hx]
    omega

section Going

variable (hbounded : s.worker.running.length ≤ s.worker.slots) (hslots : 0 < s.worker.slots)
  (hopen : s.requested = false)

include hbounded hslots hopen

theorem canTake_gathering (hp : s.worker.phase = .gathering) : s.CanTake := by
  induction hended : s.worker.ended generalizing s with
  | nil =>
    have hstep : s.worker.step (.look false) =
        some ({ s.worker with phase := .seekingSlot }, []) := by
      unfold Worker.step
      rw [hp]
      simp [hended, toPhase]
    exact canTake_of_hear (.look false) hopen.symm hstep rfl
      (canTake_seekingSlot rfl hbounded hslots)
  | cons x rest ih =>
    have hstep : s.worker.step .join = some
        ({ s.worker with ended := rest, summary := s.worker.summary.record x.2 },
          s.worker.summary.recordLog x.2) := by
      unfold Worker.step
      rw [hp]
      simp [join, hended]
    exact canTake_of_hear .join trivial hstep rfl (ih hbounded hslots hopen hp rfl)

theorem canTake_replacing (hp : s.worker.phase = .replacing) : s.CanTake := by
  have hstep : s.worker.step .replaced = some ({ s.worker with
      phase := .gathering
      summary := { s.worker.summary with
        reconnects := s.worker.summary.reconnects + 1 } }, []) := by
    unfold Worker.step
    rw [hp]
  exact canTake_of_hear .replaced trivial hstep rfl (canTake_gathering hbounded hslots hopen rfl)

theorem canTake_reopening {n : Nat} {waits : Backoff} (hp : s.worker.phase = .reopening n waits) :
    s.CanTake := by
  have hstep : ∃ log, s.worker.step (.consumed (.ok ())) =
      some ({ s.worker with phase := .replacing }, log) := by
    unfold Worker.step
    rw [hp]
    exact ⟨_, rfl⟩
  obtain ⟨log, hstep⟩ := hstep
  exact canTake_of_hear (.consumed (.ok ())) trivial hstep rfl
    (canTake_replacing hbounded hslots hopen rfl)

theorem canTake_backingOff {n : Nat} {d : Duration} {waits : Backoff}
    (hp : s.worker.phase = .backingOff n d waits) : s.CanTake := by
  have hstep : s.worker.step (.waited false) =
      some ({ s.worker with phase := .reopening n waits }, []) := by
    unfold Worker.step
    rw [hp]
    rfl
  exact canTake_of_hear (.waited false) hopen.symm hstep rfl
    (canTake_reopening hbounded hslots hopen rfl)

end Going

theorem Keeps.canTake (hk : s.Keeps limit) (hlimit : 0 < limit) (hopen : s.requested = false) :
    s.CanTake := by
  have hbounded := hk.slots ▸ hk.bounded
  have hslots := hk.slots.symm ▸ hlimit
  have hphase := hk.stays.resolve_right (by simp [hopen])
  cases hp : s.worker.phase with
  | gathering => exact canTake_gathering hbounded hslots hopen hp
  | seekingSlot => exact canTake_seekingSlot hp hbounded hslots
  | receiving => exact canTake_receiving hp
  | backingOff n d waits => exact canTake_backingOff hbounded hslots hopen hp
  | reopening n waits => exact canTake_reopening hbounded hslots hopen hp
  | replacing => exact canTake_replacing hbounded hslots hopen hp
  | cancelling | draining | aborting | closing | stopped =>
    rw [hp] at hphase
    cases hphase

structure Disciplined (limit : Nat) (s : Intake) : Prop where
  bounded : ∀ events, (s.run events).underway.length ≤ limit
  leaves : ∀ events, (s.run events).worker.phase.takesIn = false → (s.run events).requested = true
  goesOn : ∀ events, (s.run events).requested = false → (s.run events).CanTake
  last : ∀ events more, (s.run events).requested = true →
    (s.run (events ++ more)).taken.length ≤ (s.run events).taken.length + 1

end Intake
end Worker

open Worker

/-- A worker handles no more deliveries at a time than its settings say, by whatever consumers they
came; nothing but a request ends its intake, and after a request it takes one delivery at most. -/
theorem Dispatcher.Prepared.disciplined {α : Type} (p : Dispatcher.Prepared α) (grace : Duration) :
    Intake.Disciplined p.config.effectiveConcurrency { worker := p.worker grace } := by
  have hk : Intake.Keeps p.config.effectiveConcurrency { worker := p.worker grace } :=
    Intake.keeps_start (p.worker grace) rfl rfl
  have hlimit : 0 < p.config.effectiveConcurrency :=
    Nat.lt_of_lt_of_le Nat.one_pos (Nat.le_max_right _ _)
  constructor
  · intro events
    rw [← (hk.run events).running]
    exact (hk.run events).bounded
  · intro events hp
    exact (hk.run events).stays.resolve_left (by simp [hp])
  · exact fun events => (hk.run events).canTake hlimit
  · intro events more hr
    rw [Intake.run, List.foldl_append]
    exact Intake.taken_after_request (hk.run events) hr more

end OutcomeRelay
