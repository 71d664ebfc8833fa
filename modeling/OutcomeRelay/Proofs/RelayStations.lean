import OutcomeRelay.Proofs.RelayLedger

/-!
The stations at any moment of a run. A consumer belongs to one station, which takes deliveries by
its current consumer only, runs one task for each delivery that is not over, and counts each that
is.
-/

namespace OutcomeRelay.Relay

open Bus Broker DeliveryRun

namespace Station

/-- The consumers of a station: all are of its queue, and none but the current one holds anything.
-/
structure Keeps (h : History) (st : Station) : Prop where
  current : st.consumer ∈ st.opened
  fresh : ∀ id ∈ st.fresh, id ∈ st.opened
  queues : ∀ id ∈ st.opened, h.bus.queueOf? id = some st.worker.queue
  holds : ∀ n, ∀ g ∈ h.broker.heldMessages n, g.consumer ∈ st.opened →
    g.consumer = st.consumer ∧ st.worker.phase ≠ .stopped

namespace Keeps

variable {h : History} {st : Station}

theorem stir (hk : st.Keeps h) {w : Worker} (hw : Stirs st.worker w) (flag : Bool) :
    ({ st with worker := w, shutdown := flag } : Station).Keeps h := by
  rcases hw with rfl | hinner
  · exact ⟨hk.current, hk.fresh, hk.queues, hk.holds⟩
  · refine ⟨hk.current, hk.fresh, fun id hid => ?_, fun n g hg hid => ?_⟩
    · rw [hk.queues id hid, hinner.queue]
    · exact ⟨(hk.holds n g hg hid).1, hinner.going⟩

theorem perform (hk : st.Keeps h) (hr : Registered h.bus) {op : Op}
    (hop : ∀ id ∈ st.opened, ∀ d, op = .poll id → (h.perform op).2 ≠ .polled (.delivered d)) :
    st.Keeps (h.perform op).1 := by
  refine ⟨hk.current, hk.fresh, fun id hid => queueOf?_perform hr op (hk.queues id hid),
    fun n g hg hid => ?_⟩
  rcases (perform_effect h.bus op).held_cases hg with hg | ⟨hpoll, -, -, hreply⟩
  · exact hk.holds n g hg hid
  · exact absurd hreply (hop _ hid _ hpoll)

theorem not_held_close (hk : st.Keeps h) (hr : Registered h.bus) {n : String} {g : HeldMessage}
    (hg : g ∈ (h.perform (.close st.consumer)).1.broker.heldMessages n) :
    g.consumer ∉ st.opened := by
  intro hid
  have hold : g ∈ h.broker.heldMessages n := by
    rcases (perform_effect h.bus _).held_cases hg with hg | ⟨hpoll, -⟩
    · exact hg
    · cases hpoll
  have hcurrent := (hk.holds n g hold hid).1
  have hqueue := hr.holders n g hold
  rw [hcurrent] at hqueue
  exact not_held_of_closed hqueue hg hcurrent

theorem close (hk : st.Keeps h) (hr : Registered h.bus) {w : Worker}
    (hw : w.queue = st.worker.queue) {id : Nat} (hid : id ∈ st.opened) {fresh : Option Nat}
    (hfresh : ∀ id ∈ fresh, id ∈ st.opened) :
    ({ st with worker := w, consumer := id, fresh } : Station).Keeps
      (h.perform (.close st.consumer)).1 := by
  refine ⟨hid, hfresh, fun id' hid' => ?_, fun n g hg hid' => ?_⟩
  · rw [hw]
    exact queueOf?_perform hr _ (hk.queues id' hid')
  · exact absurd hid' (hk.not_held_close hr hg)

end Keeps

theorem opened_cases {h : History} (hr : Registered h.bus) {n : String} {p id : Nat}
    (hreply : (h.perform (.consume n p)).2 = .opened id) :
    h.bus.queueOf? id = none ∧ (h.perform (.consume n p)).1.bus.queueOf? id = some n ∧
      ∀ n', ∀ g ∈ (h.perform (.consume n p)).1.broker.heldMessages n', g.consumer ≠ id := by
  have henrolled := enrolled_perform hr (.consume n p)
  have hsome : ∀ reply, reply = .opened id →
      Enrolled h.bus (h.bus.perform (.consume n p)).1 (.consume n p) reply →
      id = h.bus.broker.lastConsumer + 1 ∧ ∀ k, (h.bus.perform (.consume n p)).1.queueOf? k =
        if k = h.bus.broker.lastConsumer + 1 then some n else h.bus.queueOf? k := by
    intro reply heq hcases
    cases hcases with
    | same _ _ unopened => exact absurd heq (unopened id)
    | opened queues =>
      cases heq
      exact ⟨rfl, queues⟩
  obtain ⟨rfl, hqueues⟩ := hsome _ hreply henrolled
  refine ⟨hr.queueOf?_new, (hqueues _).trans (if_pos rfl), fun n' g hg hid => ?_⟩
  rcases (perform_effect h.bus _).held_cases hg with hg | ⟨hpoll, -⟩
  · have hqueue := hr.holders n' g hg
    rw [hid, hr.queueOf?_new] at hqueue
    cases hqueue
  · cases hpoll

end Station

def endings (tasks : List Task) (k : Nat) : List DeliveryEnd :=
  tasks.filterMap fun t => if t.station = k then t.ending else none

def IsOpen (tasks : List Task) (k i : Nat) : Prop :=
  ∃ t, tasks[i]? = some t ∧ t.station = k ∧ t.ending = none

structure Tends (tasks : List Task) (k : Nat) (w : Worker) : Prop where
  accounts : w.Accounts (endings tasks k)
  nodup : w.running.Nodup
  running : ∀ i, i ∈ w.running ↔ IsOpen tasks k i

namespace Tends

variable {tasks : List Task} {k : Nat} {w w' : Worker} {log : List Log.Entry}

theorem stir (ht : Tends tasks k w) (hw : Stirs w w') : Tends tasks k w' := by
  rcases hw with rfl | hinner
  · exact ht
  · exact ⟨ht.accounts.inner hinner, hinner.running ▸ ht.nodup, hinner.running ▸ ht.running⟩

theorem closed (ht : Tends tasks k w) {a : Except BusError Unit}
    (h : w.step (.closed a) = some (w', log)) : Tends tasks k w' := by
  obtain ⟨-, rfl⟩ := Worker.step_closed h
  exact ⟨ht.accounts.closed h, ht.nodup, ht.running⟩

end Tends

section Tasks

variable {tasks : List Task} {k i : Nat} {t u : Task}

theorem isOpen_append {j : Nat} : IsOpen (tasks ++ [u]) k j ↔
    IsOpen tasks k j ∨ j = tasks.length ∧ u.station = k ∧ u.ending = none := by
  unfold IsOpen
  rcases Nat.lt_trichotomy j tasks.length with hj | rfl | hj
  · rw [List.getElem?_append_left hj]
    exact ⟨.inl, fun h => h.resolve_right (by omega)⟩
  · rw [List.getElem?_concat_length, List.getElem?_eq_none (Nat.le_refl _)]
    simp
  · rw [List.getElem?_eq_none (by simp; omega), List.getElem?_eq_none (by omega)]
    simp
    omega

theorem isOpen_set (ht : tasks[i]? = some t) {j : Nat} : IsOpen (tasks.set i u) k j ↔
    if j = i then u.station = k ∧ u.ending = none else IsOpen tasks k j := by
  unfold IsOpen
  have hi := (List.getElem?_eq_some_iff.mp ht).1
  by_cases hj : j = i
  · subst hj
    rw [List.getElem?_set_self hi, if_pos rfl]
    simp
  · rw [List.getElem?_set_ne (Ne.symm hj), if_neg hj]

theorem set_split (ht : tasks[i]? = some t) :
    ∃ l₁ l₂, tasks = l₁ ++ t :: l₂ ∧ ∀ u, tasks.set i u = l₁ ++ u :: l₂ := by
  obtain ⟨hi, hti⟩ := List.getElem?_eq_some_iff.mp ht
  refine ⟨tasks.take i, tasks.drop (i + 1), ?_, fun u => ?_⟩
  · rw [← hti, List.getElem_cons_drop, List.take_append_drop]
  · rw [List.set_eq_take_append_cons_drop, if_pos hi]

theorem endings_append (hu : u.ending = none) : endings (tasks ++ [u]) k = endings tasks k := by
  simp [endings, hu]

theorem endings_set (ht : tasks[i]? = some t) (hstation : u.station = t.station)
    (hending : t.station = k → u.ending = t.ending) :
    endings (tasks.set i u) k = endings tasks k := by
  obtain ⟨l₁, l₂, hsplit, hset⟩ := set_split ht
  have hsame : (if u.station = k then u.ending else none) =
      if t.station = k then t.ending else none := by
    rw [hstation]
    split
    · next hk => rw [hending hk]
    · rfl
  rw [hset, hsplit]
  simp only [endings, List.filterMap_append, List.filterMap_cons, hsame]

theorem endings_end {e : DeliveryEnd} (ht : tasks[i]? = some t) (hstation : t.station = k)
    (hopen : t.ending = none) (hu : u.station = k) (hended : u.ending = some e) :
    (endings tasks k ++ [e]).Perm (endings (tasks.set i u) k) := by
  obtain ⟨l₁, l₂, hsplit, hset⟩ := set_split ht
  rw [hset, hsplit]
  simp only [endings, List.filterMap_append, List.filterMap_cons, hstation, hopen, hu, hended,
    if_true, List.append_assoc]
  exact (List.perm_append_singleton _ _).append_left _

end Tasks

namespace Tends

variable {tasks : List Task} {k i : Nat} {w w' : Worker} {log : List Log.Entry} {t u : Task}

theorem delivered (hw : Tends tasks k w) (h : w.step (.delivered tasks.length) = some (w', log))
    (hu : u.station = k) (hopen : u.ending = none) : Tends (tasks ++ [u]) k w' := by
  have haccounts := hw.accounts.delivered h
  obtain ⟨-, rfl⟩ := Worker.step_delivered h
  refine ⟨by rwa [endings_append hopen], ?_, fun j => ?_⟩
  · refine List.nodup_append.mpr ⟨hw.nodup, by simp, fun a ha b hb => ?_⟩
    obtain ⟨t, ht, -⟩ := (hw.running a).mp ha
    rw [List.mem_singleton.mp hb]
    exact Nat.ne_of_lt (List.getElem?_eq_some_iff.mp ht).1
  · rw [isOpen_append, List.mem_append, hw.running, List.mem_singleton]
    simp [hu, hopen]

theorem append (hw : Tends tasks k w) (hu : u.station ≠ k) (hopen : u.ending = none) :
    Tends (tasks ++ [u]) k w := by
  refine ⟨by rw [endings_append hopen]; exact hw.accounts, hw.nodup, fun j => ?_⟩
  rw [isOpen_append, hw.running]
  simp [hu]

theorem set (hw : Tends tasks k w) (ht : tasks[i]? = some t) (hstation : u.station = t.station)
    (hending : t.station = k → u.ending = t.ending) : Tends (tasks.set i u) k w := by
  refine ⟨by rw [endings_set ht hstation hending]; exact hw.accounts, hw.nodup, fun j => ?_⟩
  rw [isOpen_set ht, hw.running]
  split
  · next hj =>
    subst hj
    rw [hstation]
    constructor
    · rintro ⟨x, hx, hk, hx'⟩
      rw [ht] at hx
      cases hx
      exact ⟨hk, (hending hk).trans hx'⟩
    · rintro ⟨hk, hx⟩
      exact ⟨t, ht, hk, (hending hk).symm.trans hx⟩
  · rfl

theorem ended (hw : Tends tasks k w) {e : DeliveryEnd}
    (h : w.step (.taskEnded i e) = some (w', log)) (ht : tasks[i]? = some t)
    (hstation : t.station = k) (hopen : t.ending = none)
    (hu : u.station = k) (hended : u.ending = some e) : Tends (tasks.set i u) k w' := by
  have haccounts := hw.accounts.taskEnded h
  obtain ⟨-, rfl⟩ := Worker.step_taskEnded h
  refine ⟨haccounts.perm (endings_end ht hstation hopen hu hended), hw.nodup.erase _, fun j => ?_⟩
  rw [isOpen_set ht, Worker.endTask, hw.nodup.mem_erase_iff, hw.running]
  split
  · next hj => simp [hj, hended]
  · next hj => simp [hj]

end Tends

structure Roster (r : Relay) : Prop where
  owner : ∀ t ∈ r.tasks, ∃ st, r.stations[t.station]? = some st ∧ t.consumer ∈ st.opened ∧
    t.queue = st.worker.queue
  apart : ∀ (j k : Nat) (sj sk : Station) (id : Nat), r.stations[j]? = some sj →
    r.stations[k]? = some sk → id ∈ sj.opened → id ∈ sk.opened → j = k
  keeps : ∀ (k : Nat) (st : Station), r.stations[k]? = some st → st.Keeps r.history
  tends : ∀ (k : Nat) (st : Station), r.stations[k]? = some st → Tends r.tasks k st.worker

namespace Roster

variable {r r' : Relay} {k : Nat} {st st' : Station}

theorem init (reserved : List String) : Roster { reserved } where
  owner _ ht := absurd ht List.not_mem_nil
  apart _ _ _ _ _ h := by cases h
  keeps _ _ h := by cases h
  tends _ _ h := by cases h

theorem getElem?_set_cases (here : r.stations[k]? = some st) {j : Nat} {sj : Station}
    (h : (r.stations.set k st')[j]? = some sj) :
    j = k ∧ sj = st' ∨ j ≠ k ∧ r.stations[j]? = some sj := by
  by_cases hj : j = k
  · subst hj
    rw [List.getElem?_set_self (List.getElem?_eq_some_iff.mp here).1] at h
    exact .inl ⟨rfl, (Option.some.inj h).symm⟩
  · rw [List.getElem?_set_ne (Ne.symm hj)] at h
    exact .inr ⟨hj, h⟩

theorem put (hr : Roster r) (here : r.stations[k]? = some st) {h' : History} {tasks' : List Task}
    (hopened : st.opened ⊆ st'.opened) (hqueue : st'.worker.queue = st.worker.queue)
    (hnew : ∀ id ∈ st'.opened, id ∈ st.opened ∨ r.history.bus.queueOf? id = none)
    (hkeeps : st'.Keeps h') (htends : Tends tasks' k st'.worker)
    (hothers : ∀ (j : Nat) (sj : Station), j ≠ k → r.stations[j]? = some sj →
      sj.Keeps h' ∧ Tends tasks' j sj.worker)
    (howner : ∀ t ∈ tasks', (∃ u ∈ r.tasks, t.station = u.station ∧ t.consumer = u.consumer ∧
      t.queue = u.queue) ∨ t.station = k ∧ t.consumer ∈ st.opened ∧ t.queue = st.worker.queue) :
    Roster ⟨h', r.reserved, r.stations.set k st', tasks'⟩ := by
  have hk : (r.stations.set k st')[k]? = some st' :=
    List.getElem?_set_self (List.getElem?_eq_some_iff.mp here).1
  -- consumers of others were opened before, so that they have a queue
  have hclash : ∀ (j : Nat) (sj : Station) (id : Nat), j ≠ k → r.stations[j]? = some sj →
      id ∈ sj.opened → id ∉ st'.opened := by
    intro j sj id hj hsj hid hid'
    rcases hnew id hid' with hold | hnone
    · exact hj (hr.apart j k sj st id hsj here hid hold)
    · rw [(hr.keeps j sj hsj).queues id hid] at hnone
      cases hnone
  refine ⟨fun t ht => ?_, fun i j si sj id hi hj hid hid' => ?_, fun j sj hj => ?_,
    fun j sj hj => ?_⟩
  · rcases howner t ht with ⟨u, hu, hstation, hconsumer, hq⟩ | ⟨hstation, hconsumer, hq⟩
    · obtain ⟨su, hsu, hmem, hqu⟩ := hr.owner u hu
      rw [hstation, hconsumer, hq]
      by_cases huk : u.station = k
      · rw [huk] at hsu ⊢
        rw [here] at hsu
        cases hsu
        exact ⟨st', hk, hopened hmem, hqu.trans hqueue.symm⟩
      · exact ⟨su, by rwa [List.getElem?_set_ne (Ne.symm huk)], hmem, hqu⟩
    · exact ⟨st', hstation ▸ hk, hopened hconsumer, hq.trans hqueue.symm⟩
  · rcases getElem?_set_cases here hi with ⟨rfl, rfl⟩ | ⟨hik, hsi⟩ <;>
      rcases getElem?_set_cases here hj with ⟨rfl, rfl⟩ | ⟨hjk, hsj⟩
    · rfl
    · exact absurd hid (hclash j sj id hjk hsj hid')
    · exact absurd hid' (hclash i si id hik hsi hid)
    · exact hr.apart i j si sj id hsi hsj hid hid'
  · rcases getElem?_set_cases here hj with ⟨rfl, rfl⟩ | ⟨hjk, hj⟩
    · exact hkeeps
    · exact (hothers j sj hjk hj).1
  · rcases getElem?_set_cases here hj with ⟨rfl, rfl⟩ | ⟨hjk, hj⟩
    · exact htends
    · exact (hothers j sj hjk hj).2

theorem put_station (hr : Roster r) (here : r.stations[k]? = some st) {h' : History}
    (hopened : st.opened ⊆ st'.opened) (hqueue : st'.worker.queue = st.worker.queue)
    (hnew : ∀ id ∈ st'.opened, id ∈ st.opened ∨ r.history.bus.queueOf? id = none)
    (hkeeps : st'.Keeps h') (htends : Tends r.tasks k st'.worker)
    (hothers : ∀ (j : Nat) (sj : Station), r.stations[j]? = some sj → sj.Keeps h') :
    Roster ⟨h', r.reserved, r.stations.set k st', r.tasks⟩ :=
  hr.put here hopened hqueue hnew hkeeps htends
    (fun j sj _ hsj => ⟨hothers j sj hsj, hr.tends j sj hsj⟩)
    fun t ht => .inl ⟨t, ht, rfl, rfl, rfl⟩

theorem owner_set {i : Nat} {t u : Task} (ht : r.tasks[i]? = some t) (hu : u.station = t.station ∧
    u.consumer = t.consumer ∧ u.queue = t.queue) :
    ∀ v ∈ r.tasks.set i u, ∃ x ∈ r.tasks, v.station = x.station ∧ v.consumer = x.consumer ∧
      v.queue = x.queue := by
  intro v hv
  rcases List.mem_or_eq_of_mem_set hv with hv | rfl
  · exact ⟨v, hv, rfl, rfl, rfl⟩
  · exact ⟨t, List.mem_of_getElem? ht, hu⟩

theorem put_ended (hr : Roster r) (here : r.stations[k]? = some st) {h' : History} {i : Nat}
    {t u : Task} {e : DeliveryEnd} {w : Worker} {log : List Log.Entry}
    (there : r.openTask? k i = some t) (heard : st.worker.step (.taskEnded i e) = some (w, log))
    (hu : u.station = t.station ∧ u.consumer = t.consumer ∧ u.queue = t.queue)
    (hended : u.ending = some e)
    (hkeeps : ∀ (j : Nat) (sj : Station), r.stations[j]? = some sj → sj.Keeps h') :
    Roster ⟨h', r.reserved, r.stations.set k { st with worker := w }, r.tasks.set i u⟩ := by
  obtain ⟨ht, hstation, hopen⟩ := openTask?_eq_some there
  have hk := hkeeps k st here
  have htends := (hr.tends k st here).ended heard ht hstation hopen (hu.1.trans hstation) hended
  obtain ⟨-, rfl⟩ := Worker.step_taskEnded heard
  refine hr.put here (List.Subset.refl _) rfl (fun id hid => .inl hid)
    ⟨hk.current, hk.fresh, hk.queues, hk.holds⟩ htends (fun j sj hj hsj => ⟨hkeeps j sj hsj, ?_⟩)
    fun v hv => .inl (owner_set ht hu v hv)
  exact (hr.tends j sj hsj).set ht hu.1 fun heq => absurd (heq.symm.trans hstation) hj

theorem keeps_perform (hr : Roster r) (hreg : Registered r.history.bus) {op : Op}
    (hop : ∀ id, op ≠ .poll id) (j : Nat) (sj : Station) (hsj : r.stations[j]? = some sj) :
    sj.Keeps (r.history.perform op).1 :=
  (hr.keeps j sj hsj).perform hreg fun id _ _ heq => absurd heq (hop id)

theorem turn_received (hr : Roster r) (hl : Ledger r) {d : Delivery} {w : Worker}
    {log : List Log.Entry} (here : r.stations[k]? = some st)
    (reply : (r.history.perform (.poll st.consumer)).2 = .polled (.delivered d))
    (heard : st.worker.step (.delivered r.tasks.length) = some (w, log)) :
    Roster ⟨(r.history.perform (.poll st.consumer)).1, r.reserved,
      r.stations.set k { st with worker := w },
      r.tasks ++ [Task.begin k st.consumer ⟨d, st.policy⟩]⟩ := by
  have hk := hr.keeps k st here
  have htends := (hr.tends k st here).delivered heard
    (u := Task.begin k st.consumer ⟨d, st.policy⟩) rfl rfl
  obtain ⟨n, m, hqueue, rfl, -, -⟩ := held_of_delivered reply
  rw [hk.queues _ hk.current] at hqueue
  cases hqueue
  obtain ⟨hphase, rfl⟩ := Worker.step_delivered heard
  refine hr.put here (List.Subset.refl _) rfl (fun id hid => .inl hid) ?_ htends ?_ ?_
  · refine ⟨hk.current, hk.fresh, fun id hid => queueOf?_perform hl.registered _ (hk.queues id hid),
      fun n g hg hid => ⟨?_, nofun⟩⟩
    rcases (perform_effect r.history.bus _).held_cases hg with hg | ⟨hpoll, -⟩
    · exact (hk.holds n g hg hid).1
    · exact (Op.poll.inj hpoll).symm
  · intro j sj hj hsj
    -- the consumer that polled is not one of theirs
    refine ⟨(hr.keeps j sj hsj).perform hl.registered ?_,
      (hr.tends j sj hsj).append (Ne.symm hj) rfl⟩
    rintro id hid _ heq
    cases heq
    exact absurd (hr.apart j k sj st _ hsj here hid hk.current) hj
  · intro t ht
    rcases List.mem_append.mp ht with ht | ht
    · exact .inl ⟨t, ht, rfl, rfl, rfl⟩
    · rw [List.mem_singleton.mp ht]
      exact .inr ⟨rfl, hk.current, rfl⟩

theorem turn_hired (hr : Roster r) (hl : Ledger r) {p : Dispatcher.Prepared Unit} {grace : Duration}
    {id : Nat}
    (reply : (r.history.perform (.consume p.queue p.config.effectivePrefetch)).2 = .opened id) :
    Roster ⟨(r.history.perform (.consume p.queue p.config.effectivePrefetch)).1, r.reserved,
      r.stations ++ [.begin p grace id], r.tasks⟩ := by
  obtain ⟨hnone, hqueue, hheld⟩ := Station.opened_cases hl.registered reply
  have hreg := hl.registered
  have hcases : ∀ (j : Nat) (sj : Station),
      (r.stations ++ [Station.begin p grace id])[j]? = some sj →
      r.stations[j]? = some sj ∨ j = r.stations.length ∧ sj = .begin p grace id := by
    intro j sj hj
    rw [List.getElem?_append] at hj
    split at hj
    · exact .inl hj
    · right
      obtain ⟨hlt, heq⟩ := List.getElem?_eq_some_iff.mp hj
      simp only [List.length_singleton] at hlt
      refine ⟨by omega, ?_⟩
      rw [List.getElem_singleton] at heq
      exact heq.symm
  have hclash : ∀ (j : Nat) (sj : Station), r.stations[j]? = some sj → id ∉ sj.opened := by
    intro j sj hsj hid
    rw [(hr.keeps j sj hsj).queues id hid] at hnone
    cases hnone
  refine ⟨fun t ht => ?_, fun i j si sj id' hi hj hid hid' => ?_, fun j sj hj => ?_,
    fun j sj hj => ?_⟩
  · obtain ⟨st, hst, hrest⟩ := hr.owner t ht
    exact ⟨st, by rwa [List.getElem?_append_left (List.getElem?_eq_some_iff.mp hst).1], hrest⟩
  · rcases hcases i si hi with hsi | ⟨rfl, rfl⟩ <;> rcases hcases j sj hj with hsj | ⟨rfl, rfl⟩
    · exact hr.apart i j si sj id' hsi hsj hid hid'
    · exact absurd (List.mem_singleton.mp hid' ▸ hid) (hclash i si hsi)
    · exact absurd (List.mem_singleton.mp hid ▸ hid') (hclash j sj hsj)
    · rfl
  · rcases hcases j sj hj with hsj | ⟨rfl, rfl⟩
    · exact hr.keeps_perform hreg (by simp) j sj hsj
    · refine ⟨.head _, by simp [Station.begin], fun id' hid => ?_, fun n g hg hid => ?_⟩
      · rw [List.mem_singleton.mp hid]
        exact hqueue
      · exact absurd (List.mem_singleton.mp hid) (hheld n g hg)
  · rcases hcases j sj hj with hsj | ⟨rfl, rfl⟩
    · exact hr.tends j sj hsj
    -- a station that is new has no tasks
    · have hnobody : ∀ t ∈ r.tasks, t.station ≠ r.stations.length := fun t ht heq => by
        obtain ⟨st, hst, -⟩ := hr.owner t ht
        have := (List.getElem?_eq_some_iff.mp hst).1
        omega
      refine ⟨?_, List.nodup_nil, fun i => ⟨nofun, ?_⟩⟩
      · have hnil : endings r.tasks r.stations.length = [] := by
          refine List.filterMap_eq_nil_iff.mpr fun t ht => ?_
          rw [if_neg (hnobody t ht)]
        rw [hnil]
        exact .start _ _ _
      · rintro ⟨t, ht, hstation, -⟩
        exact absurd hstation (hnobody t (List.mem_of_getElem? ht))

theorem turn_reopened (hr : Roster r) (hl : Ledger r) {id : Nat} {w : Worker}
    (here : r.stations[k]? = some st)
    (reply : (r.history.perform (.consume st.worker.queue st.prefetch)).2 = .opened id)
    (inner : Worker.Inner st.worker w) :
    Roster ⟨(r.history.perform (.consume st.worker.queue st.prefetch)).1, r.reserved,
      r.stations.set k { st with worker := w, fresh := some id, opened := st.opened ++ [id] },
      r.tasks⟩ := by
  have hreg := hl.registered
  obtain ⟨hnone, hqueue, hheld⟩ := Station.opened_cases hreg reply
  have hkeeps : ∀ (j : Nat) (sj : Station), r.stations[j]? = some sj →
      sj.Keeps (r.history.perform (.consume st.worker.queue st.prefetch)).1 :=
    hr.keeps_perform hreg (by simp)
  have hk := hkeeps k st here
  refine hr.put_station here (List.subset_append_left _ _) inner.queue (fun id' hid => ?_) ?_
    ((hr.tends k st here).stir (.inr inner)) hkeeps
  · rcases List.mem_append.mp hid with hid | hid
    · exact .inl hid
    · exact .inr (List.mem_singleton.mp hid ▸ hnone)
  refine ⟨List.mem_append_left _ hk.current, ?_, fun id' hid => ?_, fun n g hg hid => ?_⟩
  · intro id' hid
    cases hid
    exact List.mem_append_right _ (.head _)
  · show _ = some w.queue
    rw [inner.queue]
    rcases List.mem_append.mp hid with hid | hid
    · exact hk.queues id' hid
    · rw [List.mem_singleton.mp hid]
      exact hqueue
  · rcases List.mem_append.mp hid with hid | hid
    · exact ⟨(hk.holds n g hg hid).1, inner.going⟩
    · exact absurd (List.mem_singleton.mp hid) (hheld n g hg)

theorem turn (hr : Roster r) (hl : Ledger r) (h : Turn r r') : Roster r' := by
  have hreg := hl.registered
  cases h with
  | @client op allowed =>
    refine ⟨hr.owner, hr.apart, fun k st hst => (hr.keeps k st hst).perform hreg ?_, hr.tends⟩
    rintro id hid d rfl
    exact absurd hid (allowed.1 st (List.mem_of_getElem? hst))
  | hired reply => exact hr.turn_hired hl reply
  | @stirred k st w flag here stirs =>
    have hqueue : w.queue = st.worker.queue := stirs.elim (fun h => h ▸ rfl) (·.queue)
    exact hr.put_station here (List.Subset.refl _) hqueue (fun id hid => .inl hid)
      ((hr.keeps k st here).stir stirs flag) ((hr.tends k st here).stir stirs) hr.keeps
  | @asked k st op w here mine silent unopened stirs =>
    have hqueue : w.queue = st.worker.queue := stirs.elim (fun h => h ▸ rfl) (·.queue)
    -- the operation may be a poll, but then it gave no delivery
    have hkeeps : ∀ (j : Nat) (sj : Station), r.stations[j]? = some sj →
        sj.Keeps (r.history.perform op).1 := by
      intro j sj hsj
      refine (hr.keeps j sj hsj).perform hreg ?_
      rintro id - d rfl hreply
      have hsilent : (Op.poll id).IsSilent (.polled (.delivered d)) := hreply ▸ silent
      exact hsilent
    exact hr.put_station here (List.Subset.refl _) hqueue (fun id hid => .inl hid)
      ((hkeeps k st here).stir stirs st.shutdown) ((hr.tends k st here).stir stirs) hkeeps
  | received here reply heard => exact hr.turn_received hl here reply heard
  | reopened here reply inner => exact hr.turn_reopened hl here reply inner
  | @replaced k st id w here fresh inner =>
    have hk := hr.keeps k st here
    exact hr.put_station here (List.Subset.refl _) inner.queue (fun id hid => .inl hid)
      (hk.close hreg inner.queue (hk.fresh id fresh) (by simp))
      ((hr.tends k st here).stir (.inr inner)) (hr.keeps_perform hreg (by simp))
  | @closed k st w log here heard =>
    have hk := hr.keeps k st here
    have htends := (hr.tends k st here).closed heard
    obtain ⟨-, rfl⟩ := Worker.step_closed heard
    exact hr.put_station here (List.Subset.refl _) rfl (fun id hid => .inl hid)
      (hk.close hreg (w := { st.worker with phase := .stopped }) rfl hk.current hk.fresh) htends
      (hr.keeps_perform hreg (by simp))
  | @told k i t a trail there outside step =>
    obtain ⟨ht, -, -⟩ := openTask?_eq_some there
    refine ⟨fun u hu => ?_, hr.apart, hr.keeps,
      fun j sj hsj => (hr.tends j sj hsj).set ht rfl fun _ => rfl⟩
    obtain ⟨x, hx, hstation, hconsumer, hqueue⟩ :=
      owner_set (u := { t with trail }) ht ⟨rfl, rfl, rfl⟩ u hu
    rw [hstation, hconsumer, hqueue]
    exact hr.owner x hx
  | @settled k st i t op trail o w log here there asks step finished heard =>
    have hnot : ∀ id, op ≠ .poll id := by
      rintro id rfl
      cases Task.delivery_settlement asks
    exact hr.put_ended here there heard ⟨rfl, rfl, rfl⟩ rfl (hr.keeps_perform hreg hnot)
  | left here there unsettled heard =>
    exact hr.put_ended here there heard ⟨rfl, rfl, rfl⟩ rfl hr.keeps

end Roster

end OutcomeRelay.Relay
