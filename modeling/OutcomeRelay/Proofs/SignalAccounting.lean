import OutcomeRelay.Proofs.SignalMoves

/-!
Every signal is told once. What waits on the channels and what the monitor heard is, in some order,
what the calls told, and each call tells what became of its message. A monitor that stopped has
heard all there will ever be, since nobody could tell anything any more.
-/

namespace OutcomeRelay.Publisher

open Signal (Channel)
open scoped List

namespace MonitorSummary

structure Counts (s : MonitorSummary) (xs : List Signal) : Prop where
  acked : s.acked = xs.countP (Signal.reports ConfirmOutcome.isAck)
  nacked : s.nacked = xs.countP (Signal.reports ConfirmOutcome.isNack)
  timedOut : s.timedOut = xs.countP (Signal.reports ConfirmOutcome.isTimedOut)
  returned : s.returned = xs.countP Signal.isReturn

theorem Counts.add {s : MonitorSummary} {xs : List Signal} (h : s.Counts xs) (x : Signal) :
    (s.add x).Counts (xs ++ [x]) := by
  obtain ⟨hacked, hnacked, htimedOut, hreturned⟩ := h
  cases x with
  | returned r =>
    constructor <;> simp [MonitorSummary.add, addReturn, List.countP_append, Signal.reports,
      Signal.isReturn, hacked, hnacked, htimedOut, hreturned]
  | confirmed c =>
    cases hc : c.outcome <;> constructor <;> simp [MonitorSummary.add, addConfirm,
      List.countP_append, Signal.reports, Signal.isReturn, ConfirmOutcome.isAck,
      ConfirmOutcome.isNack, ConfirmOutcome.isTimedOut, hc, hacked, hnacked, htimedOut, hreturned]

theorem Counts.total {s : MonitorSummary} {xs : List Signal} (h : s.Counts xs) :
    s.acked + s.nacked + s.timedOut = xs.countP (Signal.reports fun _ => true) := by
  rw [h.acked, h.nacked, h.timedOut]
  clear h
  induction xs with
  | nil => rfl
  | cons x xs ih =>
    simp only [List.countP_cons]
    rcases x with c | r
    · cases hc : c.outcome <;> simp [Signal.reports, ConfirmOutcome.isAck, ConfirmOutcome.isNack,
        ConfirmOutcome.isTimedOut, hc] <;> omega
    · simpa [Signal.reports] using ih

end MonitorSummary

namespace Monitor

def summary : Monitor → MonitorSummary
  | .listening summary _ | .stopped summary => summary

variable {m : Monitor} {ch : Channel}

theorem summary_findClosed : (m.findClosed ch).summary = m.summary := by
  rcases m with ⟨_, _ | other⟩ | _
  · rfl
  · rw [findClosed]
    split <;> rfl
  · rfl

theorem looksAt_findClosed {ch' : Channel} (h : (m.findClosed ch).looksAt ch' = false) :
    ch' = ch ∨ m.looksAt ch' = false := by
  rcases m with ⟨_, _ | other⟩ | _
  · cases ch <;> cases ch' <;> first | exact .inl rfl | cases h
  · cases ch <;> cases ch' <;> cases other <;>
      first | exact .inl rfl | exact .inr rfl | cases h
  · exact .inr rfl

end Monitor

namespace Flow

variable {f f' : Flow}

structure IsShut (f : Flow) (ch : Channel) : Prop where
  empty : f.waiting ch = []
  nobody : f.hasSender ch = false

structure Sound (f : Flow) : Prop where
  postings : ∀ s ∈ f.postings, s.Sound f.config
  running : ∀ s ∈ f.postings, s.isRunning → f.publishers[s.publisher]? = some .both
  books : (f.heard ++ f.queued).Perm (f.postings.flatMap fun s => s.call.told)
  counted : f.monitor.summary.Counts f.heard
  shut : ∀ ch, f.monitor.looksAt ch = false → f.IsShut ch

theorem hasSender_eq_false {ch : Channel} : f.hasSender ch = false ↔
    (∀ e ∈ f.publishers, e.has ch = false) ∧ ∀ s ∈ f.postings, s.ends.has ch = false := by
  simp [hasSender]

theorem not_both_of_nobody {ch : Channel} (nobody : f.hasSender ch = false) {i : Nat} :
    f.publishers[i]? ≠ some .both := by
  intro here
  have hnot := (hasSender_eq_false.mp nobody).1 _ (List.mem_of_getElem? here)
  rw [Ends.has_both] at hnot
  cases hnot

theorem Sound.idle_of_nobody (h : f.Sound) {ch : Channel} (nobody : f.hasSender ch = false) :
    ∀ s ∈ f.postings, s.isRunning = false := by
  intro s hs
  rw [← Bool.not_eq_true]
  exact fun hrun => not_both_of_nobody nobody (h.running s hs hrun)

theorem perm_tell (xs : List Signal) : ((xs.filterMap Signal.confirm?).map Signal.confirmed ++
    (xs.filterMap Signal.return?).map Signal.returned).Perm xs := by
  induction xs with
  | nil => rfl
  | cons x xs ih =>
    cases x with
    | confirmed c => exact ih.cons _
    | returned r => exact List.perm_middle.trans (ih.cons _)

theorem queued_tell (f : Flow) (xs : List Signal) : (f.tell xs).queued.Perm (f.queued ++ xs) := by
  rw [queued, waiting, waiting, tell, List.map_append, List.map_append]
  -- the new confirms move past the old returns
  calc _ ~ (f.confirms.map Signal.confirmed ++ f.returns.map Signal.returned) ++
        ((xs.filterMap Signal.confirm?).map Signal.confirmed ++
          (xs.filterMap Signal.return?).map Signal.returned) := by
        simp only [List.append_assoc, List.perm_append_left_iff]
        rw [← List.append_assoc, ← List.append_assoc]
        exact List.perm_append_comm.append_right _
    _ ~ f.queued ++ xs := (perm_tell xs).append_left _

theorem waiting_congr {ch : Channel} (confirms : f'.confirms = f.confirms)
    (returns : f'.returns = f.returns) : f'.waiting ch = f.waiting ch := by
  cases ch
  · rw [waiting, confirms, waiting]
  · rw [waiting, returns, waiting]

theorem queued_behind {ch : Channel} {x : Signal} {rest : List Signal}
    (first : f.waiting ch = x :: rest) : f.queued ~ x :: (f.behind ch).queued := by
  cases ch with
  | confirms =>
    have htail : (f.behind .confirms).waiting .confirms = rest := by
      have htails := congrArg List.tail first
      rwa [waiting, ← List.map_tail] at htails
    rw [queued, first, queued, htail]
    rfl
  | returns =>
    have htail : (f.behind .returns).waiting .returns = rest := by
      have htails := congrArg List.tail first
      rwa [waiting, ← List.map_tail] at htails
    rw [queued, first, queued, htail]
    exact List.perm_middle

theorem told_set {postings : List Posting} {j : Nat} {s s' : Posting} {extra : List Signal}
    (here : postings[j]? = some s) (told : s'.call.told = s.call.told ++ extra) :
    ((postings.set j s').flatMap fun s => s.call.told).Perm
      ((postings.flatMap fun s => s.call.told) ++ extra) := by
  obtain ⟨hj, rfl⟩ := List.getElem?_eq_some_iff.mp here
  have hold : postings = postings.take j ++ postings[j] :: postings.drop (j + 1) := by simp
  rw [List.set_eq_take_append_cons_drop, if_pos hj]
  conv_rhs => rw [hold]
  simp only [List.flatMap_append, List.flatMap_cons, told, List.append_assoc,
    List.perm_append_left_iff]
  exact List.perm_append_comm

namespace Sound

theorem cloned (h : f.Sound) {i : Nat} (here : f.publishers[i]? = some .both) :
    Sound { f with publishers := f.publishers ++ [.both] } where
  postings := h.postings
  running s hs hrun := by
    have hold := h.running s hs hrun
    rwa [List.getElem?_append_left (List.getElem?_eq_some_iff.mp hold).1]
  books := h.books
  counted := h.counted
  shut ch hch := absurd here (not_both_of_nobody (h.shut ch hch).nobody)

theorem dropped (h : f.Sound) {i : Nat} {e : Ends} (ch : Channel)
    (here : f.publishers[i]? = some e)
    (idle : ∀ s ∈ f.postings, s.isRunning → s.publisher ≠ i) :
    Sound { f with publishers := f.publishers.set i (e.without ch) } where
  postings := h.postings
  running s hs hrun := by
    rw [List.getElem?_set_ne (idle s hs hrun).symm]
    exact h.running s hs hrun
  books := h.books
  counted := h.counted
  shut ch' hch := by
    obtain ⟨empty, nobody⟩ := h.shut ch' hch
    obtain ⟨hpublishers, hpostings⟩ := hasSender_eq_false.mp nobody
    refine ⟨?_, hasSender_eq_false.mpr ⟨fun e' he' => ?_, hpostings⟩⟩
    · exact (waiting_congr rfl rfl).trans empty
    · rcases List.mem_or_eq_of_mem_set he' with hold | rfl
      · exact hpublishers e' hold
      · have hlost := hpublishers e (List.mem_of_getElem? here)
        rw [← Bool.not_eq_true] at hlost ⊢
        exact fun hhas => hlost (Ends.has_of_without hhas)

theorem begun (h : f.Sound) {i : Nat} (target : RoutingTarget) (p : Publication)
    (here : f.publishers[i]? = some .both) :
    Sound { f with postings := f.postings ++ [.begin f.config i target p] } where
  postings s hs := by
    rcases List.mem_append.mp hs with hs | hs
    · exact h.postings s hs
    · rw [List.mem_singleton.mp hs]
      exact Posting.sound_begin f.config i target p
  running s hs hrun := by
    rcases List.mem_append.mp hs with hs | hs
    · exact h.running s hs hrun
    · rw [List.mem_singleton.mp hs]
      exact here
  books := by
    have hnew : (Posting.begin f.config i target p).call.told = [] := rfl
    rw [List.flatMap_append, List.flatMap_singleton, hnew, List.append_nil]
    exact h.books
  counted := h.counted
  shut ch hch := absurd here (not_both_of_nobody (h.shut ch hch).nobody)

theorem went (h : f.Sound) {j : Nat} {s s' : Posting} {extra : List Signal}
    (here : f.postings[j]? = some s) (goes : s.Goes f.config s' extra) :
    ((f.put j s').tell extra).Sound where
  postings q hq := by
    rcases List.mem_or_eq_of_mem_set hq with hq | rfl
    · exact h.postings q hq
    · exact goes.sound
  running q hq hrun := by
    rcases List.mem_or_eq_of_mem_set hq with hq | rfl
    · exact h.running q hq hrun
    · rw [goes.publisher]
      exact h.running s (List.mem_of_getElem? here) (goes.running hrun)
  books := by
    have hqueued := (queued_tell (f.put j s') extra).append_left f.heard
    rw [← List.append_assoc] at hqueued
    exact hqueued.trans ((h.books.append_right extra).trans (told_set here goes.told).symm)
  counted := h.counted
  shut ch hch := by
    obtain ⟨empty, nobody⟩ := h.shut ch hch
    obtain ⟨hpublishers, hpostings⟩ := hasSender_eq_false.mp nobody
    have hs := List.mem_of_getElem? here
    have hnone : extra = [] := by
      by_contra hextra
      have hboth := goes.telling hextra ▸ hpostings s hs
      rw [Ends.has_both] at hboth
      cases hboth
    rw [hnone, tell_nil]
    refine ⟨?_, hasSender_eq_false.mpr ⟨hpublishers, fun q hq => ?_⟩⟩
    · exact (waiting_congr rfl rfl).trans empty
    · rcases List.mem_or_eq_of_mem_set hq with hq | rfl
      · exact hpostings q hq
      · rw [← Bool.not_eq_true]
        intro hhas
        rcases goes.ends ch hhas with hold | hrun
        · simp [hpostings s hs] at hold
        · simp [h.idle_of_nobody nobody s hs] at hrun

theorem heard (h : f.Sound) {ch : Channel} {x : Signal} {rest : List Signal}
    {summary : MonitorSummary} {off : Option Channel} (first : f.waiting ch = x :: rest)
    (listening : f.monitor = .listening summary off) :
    Sound { f.behind ch with
      heard := f.heard ++ [x], monitor := .listening (summary.add x) none } where
  postings := by cases ch <;> exact h.postings
  running := by cases ch <;> exact h.running
  books := by
    have hbooks : f.heard ++ x :: (f.behind ch).queued ~ f.postings.flatMap fun s => s.call.told :=
      ((queued_behind first).append_left f.heard).symm.trans h.books
    rw [List.append_cons] at hbooks
    cases ch <;> exact hbooks
  counted := by
    have hcounted := h.counted
    rw [listening] at hcounted
    exact hcounted.add x
  shut ch' hch := by
    rw [Monitor.looksAt] at hch
    cases hch

theorem shutDown (h : f.Sound) {ch : Channel} (empty : f.waiting ch = [])
    (nobody : f.hasSender ch = false) :
    Sound { f with monitor := f.monitor.findClosed ch } where
  postings := h.postings
  running := h.running
  books := h.books
  counted := Monitor.summary_findClosed.symm ▸ h.counted
  shut ch' hch := by
    have hold : f.IsShut ch' := by
      rcases Monitor.looksAt_findClosed hch with rfl | hoff
      · exact ⟨empty, nobody⟩
      · exact h.shut ch' hoff
    exact ⟨(waiting_congr rfl rfl).trans hold.empty, hold.nobody⟩

theorem turn (h : f.Sound) (ht : Turn f f') : f'.Sound := by
  cases ht with
  | cloned here => exact h.cloned here
  | dropped ch here idle => exact h.dropped ch here idle
  | begun target p here => exact h.begun target p here
  | went here goes => exact h.went here goes
  | heard first listening => exact h.heard first listening
  | shut looks empty nobody => exact h.shutDown empty nobody

theorem init (c : PublisherConfig) : Sound { config := c } where
  postings _ hs := by cases hs
  running _ hs := by cases hs
  books := .nil
  counted := ⟨rfl, rfl, rfl, rfl⟩
  shut ch hch := by cases ch <;> cases hch

end Sound

theorem Sound.step (h : f.Sound) (m : Move) : (f.step m).Sound := by
  rw [Flow.step]
  cases hn : f.next m with
  | none => exact h
  | some f' => exact h.turn (turn_of_next h.postings hn)

theorem sound_run (c : PublisherConfig) (moves : List Move) : (run c moves).Sound := by
  suffices hfrom : ∀ f : Flow, f.Sound → (moves.foldl Flow.step f).Sound from hfrom _ (.init c)
  induction moves with
  | nil => exact fun _ h => h
  | cons m moves ih => exact fun f h => ih _ (h.step m)

end Flow

section Reports

variable {c : PublisherConfig} {m : Except PublishError Outbound} {t : Call} {f : Flow}

theorem Publication.message_ok {p : Publication} {target : RoutingTarget} {o : Outbound}
    (h : p.message c target = .ok o) :
    o.messageId = p.messageId ∧ targetOf o = target ∧ o.body = p.body := by
  rw [message_eq] at h
  split at h
  · cases h
  · split at h
    · cases h
    · obtain rfl := Except.ok.inj h
      exact ⟨rfl, rfl, rfl⟩

theorem Stage.silent (h : Stage c m t) (hacc : t.isAccepted = false) : t.told = [] := by
  cases h with
  | refused => rfl
  | attempting => exact told_rounds c _ _
  | waiting | exhausted =>
    rw [Call.told, List.filterMap_append, told_rounds]
    rfl
  | watching | telling => cases hacc

theorem Stage.watch (h : Stage c m t) (hacc : t.isAccepted) : ∃ o, m = .ok o ∧
    ((t.resolution = none ∧ t.told = [] ∧ ∀ r, (t.step (.resolved r)).isSome) ∨
      ∃ r, t.resolution = some r ∧ t.told ++ t.left = signals o r ∧
        (t.left = [] ∨ (t.step .turn).isSome)) := by
  cases h with
  | refused | attempting | waiting | exhausted => cases hacc
  | @watching o as =>
    refine ⟨o, rfl, .inl ⟨rfl, ?_, fun _ => rfl⟩⟩
    rw [Call.told, List.filterMap_append, told_rounds]
    rfl
  | @telling o as r told left failed allowed all =>
    refine ⟨o, rfl, .inr ⟨r, rfl, ?_, ?_⟩⟩
    · have htold : (told.map Event.told).filterMap Event.signal? = told := by
        rw [List.filterMap_map]
        exact List.filterMap_some
      rw [← all, Call.told, List.filterMap_append, List.filterMap_append, told_rounds, htold]
      rfl
    · cases left with
      | nil => exact .inl rfl
      | cons => exact .inr rfl

theorem countP_reports (o : Outbound) (r : Resolution) (kind : ConfirmOutcome → Bool) :
    (signals o r).countP (Signal.reports kind) = if kind r.outcome then 1 else 0 := by
  rw [signals]
  cases hk : kind r.outcome <;> cases returnSignal? o r <;>
    simp [Signal.reports, confirmSignal, hk]

theorem countP_isReturn (o : Outbound) (r : Resolution) :
    (signals o r).countP Signal.isReturn = if r.isReturned then 1 else 0 := by
  rcases r with (_ | _ | _) | _ | _ <;> rfl

structure Posting.Report (s : Posting) (r : Resolution) (all : List Signal) : Prop where
  confirms : all.filterMap Signal.confirm? =
    [⟨s.publication.messageId, s.target, r.outcome, s.publication.body⟩]
  returns : all.countP Signal.isReturn = if r.isReturned then 1 else 0
  acked : r.isReturned → r.outcome = .ack

theorem Posting.report_signals {s : Posting} {o : Outbound} (r : Resolution)
    (hm : s.publication.message c s.target = .ok o) : s.Report r (signals o r) where
  confirms := by
    obtain ⟨hid, htarget, hbody⟩ := Publication.message_ok hm
    rw [← hid, ← htarget, ← hbody, signals]
    cases returnSignal? o r <;> rfl
  returns := countP_isReturn o r
  acked h := by
    rcases r with (_ | _ | _) | _ | _
    all_goals first | rfl | cases h

end Reports

namespace Flow.Sound

variable {f : Flow} {j : Nat} {s : Posting}

theorem of_index (h : f.Sound) (here : f.postings[j]? = some s) : s.Sound f.config :=
  h.postings s (List.mem_of_getElem? here)

theorem isSome_next (h : f.Sound) (here : f.postings[j]? = some s) (hacc : s.call.isAccepted)
    {a : Answer} (hstep : (s.call.step a).isSome) : (f.next (.answer j a)).isSome := by
  have hkept : ¬ s.givenUp := fun hup => by
    have hnone := (h.of_index here).unfinished hup
    rw [Call.isAccepted, hnone] at hacc
    cases hacc
  rw [next, here, Option.bind_some, answer, Posting.hear, if_neg hkept, Option.isSome_map,
    Option.isSome_map]
  exact hstep

theorem resolved (h : f.Sound) {r : Resolution} (here : f.postings[j]? = some s)
    (hacc : s.call.isAccepted) (hr : s.call.resolution = some r) :
    ∃ all, s.Report r all ∧ s.call.told <+: all ∧
      (s.call.told = all ∨ (f.next (.answer j .turn)).isSome) := by
  obtain ⟨o, hm, ⟨hnone, -⟩ | ⟨r', hr', hall, hleft⟩⟩ := (h.of_index here).stage.watch hacc
  · rw [hr] at hnone
    cases hnone
  · obtain rfl := Option.some.inj (hr.symm.trans hr')
    refine ⟨signals o r, Posting.report_signals r hm, ⟨_, hall⟩, ?_⟩
    rcases hleft with hleft | hstep
    · rw [hleft, List.append_nil] at hall
      exact .inl hall
    · exact .inr (h.isSome_next here hacc hstep)

theorem over_of_nobody (h : f.Sound) {ch : Channel} (nobody : f.hasSender ch = false)
    (hs : s ∈ f.postings) (hacc : s.call.isAccepted) :
    ∃ o r, s.publication.message f.config s.target = .ok o ∧ s.call.resolution = some r ∧
      s.call.told = signals o r := by
  have hover : s.call.isOver := by
    by_contra hopen
    have hnone := (hasSender_eq_false.mp nobody).2 s hs
    rw [(h.postings s hs).watched hacc (by simpa using hopen), Ends.has_both] at hnone
    cases hnone
  rw [Call.isOver, Bool.and_eq_true, Bool.and_eq_true] at hover
  obtain ⟨⟨-, hsome⟩, hleft⟩ := hover
  obtain ⟨o, hm, ⟨hnone, -⟩ | ⟨r, hr, hall, -⟩⟩ := (h.postings s hs).stage.watch hacc
  · rw [hnone] at hsome
    cases hsome
  · rw [List.isEmpty_iff.mp hleft, List.append_nil] at hall
    exact ⟨o, r, hm, hr, hall⟩

theorem shut_of_stopped (h : f.Sound) {summary : MonitorSummary}
    (stopped : f.monitor = .stopped summary) (ch : Channel) : f.IsShut ch :=
  h.shut ch (by rw [stopped, Monitor.looksAt])

theorem queued_of_stopped (h : f.Sound) {summary : MonitorSummary}
    (stopped : f.monitor = .stopped summary) : f.queued = [] := by
  rw [queued, (h.shut_of_stopped stopped _).empty, (h.shut_of_stopped stopped _).empty,
    List.append_nil]

theorem gone (h : f.Sound) {summary : MonitorSummary} (stopped : f.monitor = .stopped summary) :
    (∀ e ∈ f.publishers, e = {}) ∧ f.queued = [] ∧
    ∀ s ∈ f.postings, s.isRunning = false ∧ s.ends = {} ∧
      (s.call.isAccepted → ∃ r, s.call.resolution = some r ∧ s.Report r s.call.told) := by
  have hnobody (ch : Channel) := (h.shut_of_stopped stopped ch).nobody
  refine ⟨fun e he => ?_, h.queued_of_stopped stopped, fun s hs => ⟨?_, ?_, fun hacc => ?_⟩⟩
  · exact Ends.eq_empty fun ch => (hasSender_eq_false.mp (hnobody ch)).1 e he
  · exact h.idle_of_nobody (hnobody .confirms) s hs
  · exact Ends.eq_empty fun ch => (hasSender_eq_false.mp (hnobody ch)).2 s hs
  · obtain ⟨o, r, hm, hr, htold⟩ := h.over_of_nobody (hnobody .confirms) hs hacc
    exact ⟨r, hr, htold ▸ Posting.report_signals r hm⟩

theorem countP_told {postings : List Posting} {kind : Signal → Bool} {q : Posting → Bool}
    (one : ∀ s ∈ postings, s.call.told.countP kind = if q s then 1 else 0) :
    (postings.flatMap fun s => s.call.told).countP kind = postings.countP q := by
  induction postings with
  | nil => rfl
  | cons s postings ih =>
    rw [List.flatMap_cons, List.countP_append, one s List.mem_cons_self,
      ih fun s hs => one s (List.mem_cons_of_mem _ hs), List.countP_cons, Nat.add_comm]

theorem countP_heard (h : f.Sound) {summary : MonitorSummary}
    (stopped : f.monitor = .stopped summary) {kind : Signal → Bool} {q : Posting → Bool}
    (silent : ∀ s ∈ f.postings, s.call.isAccepted = false → q s = false)
    (one : ∀ s ∈ f.postings, ∀ o r, s.call.isAccepted → s.call.resolution = some r →
      (signals o r).countP kind = if q s then 1 else 0) :
    f.heard.countP kind = f.postings.countP q := by
  have hone : ∀ s ∈ f.postings, s.call.told.countP kind = if q s then 1 else 0 := by
    intro s hs
    cases hacc : s.call.isAccepted with
    | false =>
      rw [(h.postings s hs).stage.silent hacc, silent s hs hacc]
      rfl
    | true =>
      have hnobody := (h.shut_of_stopped stopped .confirms).nobody
      obtain ⟨o, r, -, hr, htold⟩ := h.over_of_nobody hnobody hs hacc
      rw [htold]
      exact one s hs o r hacc hr
  have hbooks := h.books
  rw [h.queued_of_stopped stopped, List.append_nil] at hbooks
  rw [hbooks.countP_eq kind]
  exact countP_told hone

theorem countP_outcome (h : f.Sound) {summary : MonitorSummary}
    (stopped : f.monitor = .stopped summary) (kind : ConfirmOutcome → Bool) :
    f.heard.countP (Signal.reports kind) =
      f.postings.countP (fun s => s.call.outcome?.any kind) := by
  refine h.countP_heard stopped (fun s _ hacc => ?_) fun s _ o r hacc hr => ?_
  · simp [Call.outcome?, hacc]
  · simp [Call.outcome?, hacc, hr, countP_reports]

theorem counts (h : f.Sound) {summary : MonitorSummary}
    (stopped : f.monitor = .stopped summary) :
    summary.acked = f.postings.countP (fun s => s.call.outcome?.any ConfirmOutcome.isAck) ∧
    summary.nacked = f.postings.countP (fun s => s.call.outcome?.any ConfirmOutcome.isNack) ∧
    summary.timedOut = f.postings.countP (fun s => s.call.outcome?.any ConfirmOutcome.isTimedOut) ∧
    summary.acked + summary.nacked + summary.timedOut =
      f.postings.countP (fun s => s.call.isAccepted) ∧
    summary.returned = f.postings.countP (fun s => s.call.isReturned) := by
  have hcounted := h.counted
  rw [stopped] at hcounted
  have hall : f.heard.countP (Signal.reports fun _ => true) =
      f.postings.countP (fun s => s.call.isAccepted) := by
    refine h.countP_heard stopped (fun s _ hacc => hacc) fun s _ o r hacc hr => ?_
    rw [countP_reports, hacc]
  have hreturned : f.heard.countP Signal.isReturn =
      f.postings.countP (fun s => s.call.isReturned) := by
    refine h.countP_heard stopped (fun s _ hacc => ?_) fun s _ o r hacc hr => ?_
    · simp [Call.isReturned, hacc]
    · simp [Call.isReturned, hacc, hr, countP_isReturn]
  exact ⟨hcounted.acked.trans (h.countP_outcome stopped _),
    hcounted.nacked.trans (h.countP_outcome stopped _),
    hcounted.timedOut.trans (h.countP_outcome stopped _),
    hcounted.total.trans hall, hcounted.returned.trans hreturned⟩

end Flow.Sound

example : (Flow.run {} [
    .publish 0 ⟨"e", "k"⟩ (.notice ⟨"", ⟨⟨2025, 1, 1⟩, 0, 0, 0, 0⟩⟩ "id"),
    .answer 0 (.transport (.ok ())), .drop 0 .returns, .drop 0 .confirms,
    .answer 0 (.resolved (.confirmed (.returned ⟨312, "", "e", "k", none, []⟩))),
    .answer 0 .turn, .look .confirms, .look .returns, .answer 0 .turn, .leave 0 .returns,
    .look .returns, .look .confirms, .leave 0 .confirms, .look .confirms,
    .look .returns]).monitor = .stopped { acked := 1, returned := 1 } := by
  decide

end OutcomeRelay.Publisher
