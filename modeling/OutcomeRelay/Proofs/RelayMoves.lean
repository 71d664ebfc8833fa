import OutcomeRelay.Proofs.BusCustody
import OutcomeRelay.Proofs.Relay
import OutcomeRelay.Proofs.WorkerBooks

/-!
What a move can do. `Turn` lists it for stations and tasks together, and `Course` for the broker and
the tasks alone, where the work of a station shows only in the deliveries that it takes and settles.
-/

namespace OutcomeRelay.Relay

open Bus DeliveryRun

def Stirs (w w' : Worker) : Prop :=
  w' = w ∨ Worker.Inner w w'

inductive Turn (r : Relay) : Relay → Prop where
  | client {op : Op} (allowed : r.Allows op) : Turn r (r.perform op).1
  | hired {p : Dispatcher.Prepared Unit} {grace : Duration} {id : Nat}
      (reply : (r.perform (.consume p.queue p.config.effectivePrefetch)).2 = .opened id) :
      Turn r { (r.perform (.consume p.queue p.config.effectivePrefetch)).1 with
        stations := r.stations ++ [.begin p grace id] }
  | stirred {k : Nat} {st : Station} {w : Worker} (flag : Bool) (here : r.stations[k]? = some st)
      (stirs : Stirs st.worker w) : Turn r (r.put k { st with worker := w, shutdown := flag })
  | asked {k : Nat} {st : Station} {op : Op} {w : Worker} (here : r.stations[k]? = some st)
      (mine : op = .poll st.consumer ∨ op = .cancel st.consumer ∨ ∃ n p, op = .consume n p)
      (silent : op.IsSilent (r.perform op).2) (unopened : ∀ id, (r.perform op).2 ≠ .opened id)
      (stirs : Stirs st.worker w) : Turn r ((r.perform op).1.put k { st with worker := w })
  | received {k : Nat} {st : Station} {d : Delivery} {w : Worker} {log : List Log.Entry}
      (here : r.stations[k]? = some st)
      (reply : (r.perform (.poll st.consumer)).2 = .polled (.delivered d))
      (heard : st.worker.step (.delivered r.tasks.length) = some (w, log)) :
      Turn r ({ (r.perform (.poll st.consumer)).1 with
          tasks := r.tasks ++ [Task.begin k st.consumer ⟨d, st.policy⟩] }.put k
        { st with worker := w })
  | reopened {k : Nat} {st : Station} {id : Nat} {w : Worker} (here : r.stations[k]? = some st)
      (reply : (r.perform (.consume st.worker.queue st.prefetch)).2 = .opened id)
      (inner : Worker.Inner st.worker w) :
      Turn r ((r.perform (.consume st.worker.queue st.prefetch)).1.put k
        { st with worker := w, fresh := some id, opened := st.opened ++ [id] })
  | replaced {k : Nat} {st : Station} {id : Nat} {w : Worker} (here : r.stations[k]? = some st)
      (fresh : st.fresh = some id) (inner : Worker.Inner st.worker w) :
      Turn r ((r.perform (.close st.consumer)).1.put k
        { st with worker := w, consumer := id, fresh := none })
  | closed {k : Nat} {st : Station} {w : Worker} {log : List Log.Entry}
      (here : r.stations[k]? = some st)
      (heard : st.worker.step (.closed (.ok ())) = some (w, log)) :
      Turn r ((r.perform (.close st.consumer)).1.put k { st with worker := w })
  | told {k i : Nat} {t : Task} {a : Answer} {trail : Trail} (there : r.openTask? k i = some t)
      (outside : ∀ b, a ≠ .broker b) (step : t.trail.step t.job a = some trail) :
      Turn r (r.putTask i { t with trail })
  | settled {k : Nat} {st : Station} {i : Nat} {t : Task} {op : Op} {trail : Trail}
      {o : DeliveryOutcome} {w : Worker} {log : List Log.Entry} (here : r.stations[k]? = some st)
      (there : r.openTask? k i = some t) (asks : t.settlement? = some op)
      (step : t.trail.step t.job (.broker (r.perform op).2.answer) = some trail)
      (finished : trail.phase = .finished o)
      (heard : st.worker.step (.taskEnded i (.settled o)) = some (w, log)) :
      Turn r (((r.perform op).1.putTask i { t with trail, ending := some (.settled o) }).put k
        { st with worker := w })
  | left {k : Nat} {st : Station} {i : Nat} {t : Task} {e : DeliveryEnd} {w : Worker}
      {log : List Log.Entry} (here : r.stations[k]? = some st) (there : r.openTask? k i = some t)
      (unsettled : ∀ o, e ≠ .settled o)
      (heard : st.worker.step (.taskEnded i e) = some (w, log)) :
      Turn r ((r.putTask i { t with ending := some e }).put k { st with worker := w })

section Moves

variable {r r' : Relay} {k : Nat} {st : Station}

theorem advance_eq_some {input : Worker.Input} (h : r.advance k st input = some r') :
    ∃ w log, st.worker.step input = some (w, log) ∧ r' = r.put k { st with worker := w } := by
  obtain ⟨⟨w, log⟩, hw, rfl⟩ := Option.map_eq_some_iff.mp h
  exact ⟨w, log, hw, rfl⟩

theorem openTask?_eq_some {i : Nat} {t : Task} (h : r.openTask? k i = some t) :
    r.tasks[i]? = some t ∧ t.station = k ∧ t.ending = none := by
  obtain ⟨ht, hp⟩ := Option.filter_eq_some_iff.mp h
  exact ⟨ht, by simpa using hp⟩

theorem stirs_of_step {input : Worker.Input} {w : Worker} {log : List Log.Entry}
    (h : st.worker.step input = some (w, log)) (hinner : input.IsInner) : Stirs st.worker w :=
  .inr (Worker.step_inner h hinner)

theorem Signal.isInner {s : Signal} {shutdown : Bool} {input : Worker.Input}
    (h : s.input? shutdown = some input) : input.IsInner := by
  cases s <;> simp only [Signal.input?, Option.some.injEq, Option.ite_none_right_eq_some] at h
  all_goals first | subst h; trivial | (obtain ⟨-, rfl⟩ := h; trivial)

theorem put_self (here : r.stations[k]? = some st) : r.put k st = r := by
  obtain ⟨hk, hst⟩ := List.getElem?_eq_some_iff.mp here
  rw [put, ← hst, List.set_getElem_self]

theorem turn_poll (here : r.stations[k]? = some st) (h : r.poll k st = some r') : Turn r r' := by
  unfold poll at h
  split at h
  · dsimp only at h
    split at h
    · next d hreply =>
      obtain ⟨w, log, hw, rfl⟩ := advance_eq_some h
      exact .received here hreply hw
    · next e hreply =>
      obtain ⟨w, log, hw, rfl⟩ := advance_eq_some h
      exact .asked here (.inl rfl) (hreply ▸ trivial) (by rw [hreply]; nofun)
        (stirs_of_step hw trivial)
    · next hreply =>
      obtain ⟨w, log, hw, rfl⟩ := advance_eq_some h
      exact .asked here (.inl rfl) (hreply ▸ trivial) (by rw [hreply]; nofun)
        (stirs_of_step hw trivial)
    · next e hreply =>
      cases h
      have hturn := Turn.asked here (.inl rfl) (hreply ▸ trivial) (by rw [hreply]; nofun)
        -- a worker that finds nothing stays as it is
        (.inl rfl : Stirs st.worker st.worker)
      rwa [put_self (r := (r.perform (.poll st.consumer)).1) here] at hturn
    · cases h
  · cases h

theorem turn_reopen (here : r.stations[k]? = some st) (h : r.reopen k st = some r') :
    Turn r r' := by
  unfold reopen at h
  split at h
  · dsimp only at h
    split at h
    · next id hreply =>
      obtain ⟨w, log, hw, rfl⟩ := advance_eq_some h
      exact .reopened here hreply (Worker.step_inner hw trivial)
    · next e hreply =>
      obtain ⟨w, log, hw, rfl⟩ := advance_eq_some h
      exact .asked here (.inr (.inr ⟨_, _, rfl⟩)) (hreply ▸ trivial) (by rw [hreply]; nofun)
        (stirs_of_step hw trivial)
    · cases h
  · cases h

theorem turn_replace (here : r.stations[k]? = some st) (h : r.replace k st = some r') :
    Turn r r' := by
  unfold replace at h
  split at h
  · next id _ hfresh =>
    obtain ⟨w, log, hw, rfl⟩ := advance_eq_some h
    exact .replaced here hfresh (Worker.step_inner hw trivial)
  · cases h

theorem turn_cancel (here : r.stations[k]? = some st) (h : r.cancel k st = some r') :
    Turn r r' := by
  unfold cancel at h
  split at h
  · obtain ⟨w, log, hw, rfl⟩ := advance_eq_some h
    refine .asked here (.inr (.inl rfl)) ?_ (fun id => ?_) (stirs_of_step hw trivial)
    · cases (r.perform (.cancel st.consumer)).2 <;> trivial
    · show (r.history.bus.perform (.cancel st.consumer)).2 ≠ _
      simp only [Bus.perform]
      split <;> simp
  · cases h

theorem turn_close (here : r.stations[k]? = some st) (h : r.close k st = some r') : Turn r r' := by
  unfold close at h
  split at h
  · obtain ⟨w, log, hw, rfl⟩ := advance_eq_some h
    exact .closed here hw
  · cases h

theorem turn_tell {i : Nat} {t : Task} {a : Answer} (there : r.openTask? k i = some t)
    (outside : ∀ b, a ≠ .broker b) (h : r.tell i t a = some r') : Turn r r' := by
  obtain ⟨trail, hstep, rfl⟩ := Option.map_eq_some_iff.mp h
  exact .told there outside hstep

theorem turn_finish {i : Nat} {t : Task} {e : DeliveryEnd} (here : r.stations[k]? = some st)
    (there : r.openTask? k i = some t) (unsettled : ∀ o, e ≠ .settled o)
    (h : r.finish k st i t e = some r') : Turn r r' := by
  obtain ⟨w, log, hw, rfl⟩ := advance_eq_some h
  exact .left here there unsettled hw

theorem turn_settle {i : Nat} {t : Task} (here : r.stations[k]? = some st)
    (there : r.openTask? k i = some t) (h : r.settle k st i t = some r') : Turn r r' := by
  obtain ⟨op, hop, h⟩ := Option.bind_eq_some_iff.mp h
  obtain ⟨trail, hstep, h⟩ := Option.bind_eq_some_iff.mp h
  split at h
  · next o hfinished =>
    obtain ⟨w, log, hw, rfl⟩ := advance_eq_some h
    exact .settled (t := t) here there hop hstep hfinished hw
  · cases h

theorem turn_act {a : Act} (here : r.stations[k]? = some st) (h : r.act k st a = some r') :
    Turn r r' := by
  cases a with
  | signal s =>
    obtain ⟨input, hinput, h⟩ := Option.bind_eq_some_iff.mp h
    obtain ⟨w, log, hw, rfl⟩ := advance_eq_some h
    exact .stirred st.shutdown here (stirs_of_step hw (Signal.isInner hinput))
  | poll => exact turn_poll here h
  | reopen => exact turn_reopen here h
  | replace => exact turn_replace here h
  | cancel => exact turn_cancel here h
  | close => exact turn_close here h
  | handled i result =>
    obtain ⟨t, ht, h⟩ := Option.bind_eq_some_iff.mp h
    exact turn_tell ht (by simp) h
  | woken i =>
    obtain ⟨t, ht, h⟩ := Option.bind_eq_some_iff.mp h
    exact turn_tell ht (by simp) h
  | settle i =>
    obtain ⟨t, ht, h⟩ := Option.bind_eq_some_iff.mp h
    exact turn_settle here ht h
  | panic i message =>
    obtain ⟨t, ht, h⟩ := Option.bind_eq_some_iff.mp h
    exact turn_finish here ht (by simp) h
  | cut i =>
    simp only [act] at h
    split at h
    · obtain ⟨t, ht, h⟩ := Option.bind_eq_some_iff.mp h
      exact turn_finish here ht (by simp) h
    · cases h

theorem turn_hire (r : Relay) (p : Dispatcher.Prepared Unit) (grace : Duration) :
    Turn r (r.hire p grace) := by
  unfold hire
  dsimp only
  split
  · next id hreply => exact .hired hreply
  · exact .client trivial

theorem turn_of_next {m : Move} (h : r.next m = some r') : Turn r r' := by
  cases m with
  | client op =>
    simp only [next] at h
    split at h
    · next hallowed =>
      cases h
      exact .client hallowed
    · cases h
  | hire p grace =>
    cases h
    exact turn_hire r p grace
  | stop k =>
    obtain ⟨st, hst, rfl⟩ := Option.map_eq_some_iff.mp h
    exact .stirred true hst (.inl rfl)
  | act k a =>
    obtain ⟨st, hst, h⟩ := Option.bind_eq_some_iff.mp h
    exact turn_act hst h

theorem run_induction {P : Relay → Prop} (turn : ∀ r r', P r → Turn r r' → P r') {r : Relay}
    (h : P r) (moves : List Move) : P (r.run moves) := by
  induction moves generalizing r with
  | nil => exact h
  | cons m moves ih =>
    refine ih ?_
    unfold step
    cases hnext : r.next m with
    | none => exact h
    | some r' => exact turn r r' h (turn_of_next hnext)

end Moves

inductive Course (r r' : Relay) : Prop where
  | same (history : r'.history = r.history) (tasks : r'.tasks = r.tasks)
  | other (op : Op) (history : r'.history = (r.history.perform op).1) (tasks : r'.tasks = r.tasks)
      (named : ∀ n tag, op.delivery? = some (n, tag) →
        tag ≤ r.history.broker.lastTag ∧ ∀ t ∈ r.tasks, ¬ (t.queue = n ∧ t.tag = tag))
      (unreserved : ∀ id d n, op = .poll id → (r.history.perform op).2 = .polled (.delivered d) →
        r.history.bus.queueOf? id = some n → n ∉ r.reserved)
  | received (k id : Nat) (d : Delivery) (policy : RetryPolicy)
      (reply : (r.history.perform (.poll id)).2 = .polled (.delivered d))
      (history : r'.history = (r.history.perform (.poll id)).1)
      (tasks : r'.tasks = r.tasks ++ [Task.begin k id ⟨d, policy⟩])
  | told (i : Nat) (t : Task) (a : Answer) (trail : Trail) (there : r.tasks[i]? = some t)
      (unended : t.ending = none) (outside : ∀ b, a ≠ .broker b)
      (step : t.trail.step t.job a = some trail) (history : r'.history = r.history)
      (tasks : r'.tasks = r.tasks.set i { t with trail })
  | settled (i : Nat) (t : Task) (op : Op) (trail : Trail) (o : DeliveryOutcome)
      (there : r.tasks[i]? = some t) (unended : t.ending = none) (asks : t.settlement? = some op)
      (step : t.trail.step t.job (.broker (r.history.perform op).2.answer) = some trail)
      (finished : trail.phase = .finished o) (history : r'.history = (r.history.perform op).1)
      (tasks : r'.tasks = r.tasks.set i { t with trail, ending := some (.settled o) })
  | left (i : Nat) (t : Task) (e : DeliveryEnd) (there : r.tasks[i]? = some t)
      (unended : t.ending = none) (unsettled : ∀ o, e ≠ .settled o)
      (history : r'.history = r.history)
      (tasks : r'.tasks = r.tasks.set i { t with ending := some e })

theorem Turn.course {r r' : Relay} (h : Turn r r') : Course r r' := by
  cases h with
  | @client op allowed =>
    refine .other op rfl rfl (fun n tag hop => ?_) (fun id d n hop _ hqueue => ?_)
    · cases op <;> cases hop <;> exact allowed
    · subst hop
      exact allowed.2 n hqueue
  | hired reply => exact .other _ rfl rfl nofun nofun
  | stirred => exact .same rfl rfl
  | @asked k st op w here mine silent =>
    refine .other op rfl rfl (fun n tag hop => ?_) (fun id d n hop hreply => ?_)
    · rcases mine with rfl | rfl | ⟨_, _, rfl⟩ <;> cases hop
    · subst hop
      have hsilent : (Op.poll id).IsSilent (.polled (.delivered d)) := hreply ▸ silent
      exact hsilent.elim
  | @received k st d w log here reply => exact .received k st.consumer d st.policy reply rfl rfl
  | reopened => exact .other _ rfl rfl nofun nofun
  | replaced => exact .other _ rfl rfl nofun nofun
  | closed => exact .other _ rfl rfl nofun nofun
  | told there outside step =>
    obtain ⟨ht, -, hopen⟩ := openTask?_eq_some there
    exact .told _ _ _ _ ht hopen outside step rfl rfl
  | settled here there asks step finished =>
    obtain ⟨ht, -, hopen⟩ := openTask?_eq_some there
    exact .settled _ _ _ _ _ ht hopen asks step finished rfl rfl
  | left here there unsettled =>
    obtain ⟨ht, -, hopen⟩ := openTask?_eq_some there
    exact .left _ _ _ ht hopen unsettled rfl rfl

theorem Course.history_cases {r r' : Relay} (h : Course r r') :
    r'.history = r.history ∨ ∃ op, r'.history = (r.history.perform op).1 := by
  cases h with
  | same history | told _ _ _ _ _ _ _ _ history | left _ _ _ _ _ _ history => exact .inl history
  | other op history | settled _ _ op _ _ _ _ _ _ _ history => exact .inr ⟨op, history⟩
  | received _ _ _ _ _ history => exact .inr ⟨_, history⟩

theorem Turn.reserved {r r' : Relay} (h : Turn r r') : r'.reserved = r.reserved := by
  cases h <;> rfl

end OutcomeRelay.Relay
