import OutcomeRelay.Proofs.SignalFlow

/-!
What a move can do to publishers, their calls and their monitor. `Goes` lists what any move leaves
of a posting; `Turn` has all moves, with each one that concerns a posting reduced to that.
-/

namespace OutcomeRelay.Publisher

open Signal (Channel)

section Calls

variable {c : PublisherConfig} {m : Except PublishError Outbound} {t t' : Call} {a : Answer}

structure Call.Course (t : Call) (a : Answer) (t' : Call) : Prop where
  told : t'.told = t.told ++ t.tells a
  telling : t.tells a ≠ [] → t.isAccepted
  running : t'.result? = none → t.result? = none
  lasting : t.isAccepted → t'.isAccepted
  unfinished : t.isAccepted → t.isOver = false
  handed : a = .transport (.ok ()) → t'.isAccepted
  before : t'.isAccepted → t.isAccepted ∨ a = .transport (.ok ()) ∧ t.result? = none

theorem Call.Course.before_of_not (h : t.Course a t') (hacc : t'.isAccepted = false) :
    t.isAccepted = false :=
  Bool.eq_false_iff.mpr fun hbefore => by simp [h.lasting hbefore] at hacc

theorem Call.told_concat {e : Event} (he : t'.events = t.events ++ [e]) :
    t'.told = t.told ++ e.signal?.toList := by
  rw [told, he, List.filterMap_append]
  cases hs : e.signal? <;> simp [told, hs]

theorem Stage.course (h : Stage c m t) (hs : t.step a = some t') : t.Course a t' := by
  cases h with
  | refused => cases hs
  | exhausted => cases a <;> cases hs
  | @attempting o as failed left =>
    cases a with
    | transport r =>
      obtain rfl := Option.some.inj hs
      cases r with
      | ok u =>
        exact ⟨Call.told_concat (e := .sent o (.ok u)) rfl, nofun, nofun, nofun, nofun,
          fun _ => rfl, fun _ => .inr ⟨rfl, rfl⟩⟩
      | error e =>
        refine ⟨Call.told_concat (e := .sent o (.error e)) rfl, nofun, fun _ => rfl, nofun, nofun,
          nofun, ?_⟩
        by_cases hleft : as.length + 1 < c.attempts
        · rw [sent_of_left c o hleft]
          nofun
        · rw [sent_of_last c o (by omega)]
          nofun
    | _ => cases hs
  | @waiting o as e failed left =>
    cases a with
    | elapsed =>
      obtain rfl := Option.some.inj hs
      exact ⟨Call.told_concat (e := .waited c.retryDelay) rfl, nofun, fun _ => rfl, nofun, nofun,
        nofun, nofun⟩
    | _ => cases hs
  | @watching o as failed left =>
    cases a with
    | resolved r =>
      obtain rfl := Option.some.inj hs
      exact ⟨Call.told_concat (e := .resolved r) rfl, nofun, nofun, fun _ => rfl, fun _ => rfl,
        nofun, fun _ => .inl rfl⟩
    | _ => cases hs
  | @telling o as r told left =>
    cases a with
    | turn =>
      cases left with
      | nil => cases hs
      | cons x rest =>
        obtain rfl := Option.some.inj hs
        exact ⟨Call.told_concat (e := .told x) rfl, fun _ => rfl, nofun, fun _ => rfl,
          fun _ => rfl, nofun, fun _ => .inl rfl⟩
    | _ => cases hs

end Calls

namespace Posting

variable {c : PublisherConfig} {s s' : Posting} {a : Answer} {extra : List Signal}

/-- What holds of a posting by itself. A watch keeps its ends until it has told all. -/
structure Sound (c : PublisherConfig) (s : Posting) : Prop where
  stage : Stage c (s.publication.message c s.target) s.call
  unwatched : s.call.isAccepted = false → s.ends = {}
  watched : s.call.isAccepted → s.call.isOver = false → s.ends = .both
  unfinished : s.givenUp → s.call.result? = none

structure Goes (c : PublisherConfig) (s s' : Posting) (extra : List Signal) : Prop where
  sound : s'.Sound c
  publisher : s'.publisher = s.publisher
  running : s'.isRunning → s.isRunning
  told : s'.call.told = s.call.told ++ extra
  ends : ∀ ch, s'.ends.has ch → s.ends.has ch ∨ s.isRunning
  telling : extra ≠ [] → s.ends = .both

theorem sound_begin (c : PublisherConfig) (publisher : Nat) (target : RoutingTarget)
    (p : Publication) : (begin c publisher target p).Sound c where
  stage := .begin c target p
  unwatched _ := rfl
  watched h := by
    have hstart : (Call.begin c target p).isAccepted = false := by
      unfold Call.begin
      cases p.message c target <;> rfl
    rw [begin, hstart] at h
    cases h
  unfinished := nofun

theorem isRunning_iff : s.isRunning ↔ s.givenUp = false ∧ s.call.result? = none := by
  simp [isRunning]

theorem running_of {t : Call} {e : Ends} (hrun : { s with call := t, ends := e }.isRunning)
    (hback : t.result? = none → s.call.result? = none) : s.isRunning := by
  obtain ⟨hkept, hnone⟩ := isRunning_iff.mp hrun
  exact isRunning_iff.mpr ⟨hkept, hback hnone⟩

theorem goes_hear (h : s.Sound c) (hs : s.hear a = some s') : s.Goes c s' (s.call.tells a) := by
  unfold hear at hs
  split at hs
  · cases hs
  · next hkept =>
    obtain ⟨t, ht, rfl⟩ := Option.map_eq_some_iff.mp hs
    have hcourse := h.stage.course ht
    have hends : s.call.isAccepted → s.ends = .both := fun hacc =>
      h.watched hacc (hcourse.unfinished hacc)
    split
    · exact {
        sound := ⟨h.stage.step ht, fun hacc => by simp [hcourse.handed rfl] at hacc,
          fun _ _ => rfl, fun hup => absurd hup hkept⟩
        publisher := rfl
        running := fun hrun => running_of hrun hcourse.running
        told := hcourse.told
        ends := fun ch _ => (hcourse.before (hcourse.handed rfl)).imp
          (fun hacc => hends hacc ▸ Ends.has_both ch)
          (fun hbefore => isRunning_iff.mpr ⟨by simpa using hkept, hbefore.2⟩)
        telling := fun htells => hends (hcourse.telling htells) }
    · next hother =>
      exact {
        sound := ⟨h.stage.step ht, fun hacc => h.unwatched (hcourse.before_of_not hacc),
          fun hacc _ => hends ((hcourse.before hacc).resolve_right fun hh => hother () hh.1),
          fun hup => absurd hup hkept⟩
        publisher := rfl
        running := fun hrun => running_of hrun hcourse.running
        told := hcourse.told
        ends := fun ch hch => .inl hch
        telling := fun htells => hends (hcourse.telling htells) }

theorem goes_giveUp (h : s.Sound c) (running : s.isRunning) :
    s.Goes c { s with givenUp := true } [] where
  sound := ⟨h.stage, h.unwatched, h.watched, fun _ => (isRunning_iff.mp running).2⟩
  publisher := rfl
  running := nofun
  told := (List.append_nil _).symm
  ends _ hch := .inl hch
  telling := nofun

theorem goes_leave (h : s.Sound c) (hover : s.call.isOver) (ch : Channel) :
    s.Goes c { s with ends := s.ends.without ch } [] where
  sound :=
    have hacc : s.call.isAccepted := by
      unfold Call.isOver at hover
      simp only [Bool.and_eq_true] at hover
      exact hover.1.1
    ⟨h.stage, fun hnot => by simp [hacc] at hnot, fun _ hopen => by simp [hover] at hopen,
      h.unfinished⟩
  publisher := rfl
  running := id
  told := (List.append_nil _).symm
  ends _ hch := .inl (Ends.has_of_without hch)
  telling := nofun

end Posting

namespace Flow

variable {f f' : Flow}

inductive Turn (f : Flow) : Flow → Prop where
  | cloned {i : Nat} (here : f.publishers[i]? = some .both) :
      Turn f { f with publishers := f.publishers ++ [.both] }
  | dropped {i : Nat} {e : Ends} (ch : Channel) (here : f.publishers[i]? = some e)
      (idle : ∀ s ∈ f.postings, s.isRunning → s.publisher ≠ i) :
      Turn f { f with publishers := f.publishers.set i (e.without ch) }
  | begun {i : Nat} (target : RoutingTarget) (p : Publication)
      (here : f.publishers[i]? = some .both) :
      Turn f { f with postings := f.postings ++ [.begin f.config i target p] }
  | went {j : Nat} {s s' : Posting} {extra : List Signal} (here : f.postings[j]? = some s)
      (goes : s.Goes f.config s' extra) : Turn f ((f.put j s').tell extra)
  | heard {ch : Channel} {x : Signal} {rest : List Signal} {summary : MonitorSummary}
      {off : Option Channel} (first : f.waiting ch = x :: rest)
      (listening : f.monitor = .listening summary off) :
      Turn f { f.behind ch with
        heard := f.heard ++ [x], monitor := .listening (summary.add x) none }
  | shut {ch : Channel} (looks : f.monitor.looksAt ch) (empty : f.waiting ch = [])
      (nobody : f.hasSender ch = false) :
      Turn f { f with monitor := f.monitor.findClosed ch }

theorem tell_nil (f : Flow) : f.tell [] = f := by
  simp [tell]

theorem turn_of_look {ch : Channel} (h : f.look ch = some f') : Turn f f' := by
  unfold look at h
  split at h
  · next looks =>
    split at h
    · next x rest first =>
      obtain rfl := Option.some.inj h
      cases hm : f.monitor with
      | listening summary off => exact .heard first hm
      | stopped summary => simp [hm, Monitor.looksAt] at looks
    · next empty =>
      split at h
      · cases h
      · next nobody =>
        obtain rfl := Option.some.inj h
        exact .shut looks empty (by simpa using nobody)
  · cases h

theorem turn_of_next {m : Move} (sound : ∀ s ∈ f.postings, s.Sound f.config)
    (h : f.next m = some f') : Turn f f' := by
  have hsound {j : Nat} {s : Posting} (here : f.postings[j]? = some s) : s.Sound f.config :=
    sound s (List.mem_of_getElem? here)
  cases m with
  | look ch => exact turn_of_look h
  | clone i =>
    simp only [next, Option.ite_none_right_eq_some, Option.some.injEq] at h
    obtain ⟨here, rfl⟩ := h
    exact .cloned here
  | publish i target p =>
    simp only [next, Option.ite_none_right_eq_some, Option.some.injEq] at h
    obtain ⟨here, rfl⟩ := h
    exact .begun target p here
  | drop i ch =>
    obtain ⟨e, here, h⟩ := Option.bind_eq_some_iff.mp h
    split at h
    · cases h
    · next idle =>
      obtain rfl := Option.some.inj h
      exact .dropped ch here (by simpa using idle)
  | answer j a =>
    obtain ⟨s, here, h⟩ := Option.bind_eq_some_iff.mp h
    obtain ⟨s', hs, rfl⟩ := Option.map_eq_some_iff.mp h
    exact .went here (Posting.goes_hear (hsound here) hs)
  | giveUp j =>
    obtain ⟨s, here, h⟩ := Option.bind_eq_some_iff.mp h
    simp only [Option.ite_none_right_eq_some, Option.some.injEq] at h
    obtain ⟨running, rfl⟩ := h
    have hturn := Turn.went here (Posting.goes_giveUp (hsound here) running)
    rwa [tell_nil] at hturn
  | leave j ch =>
    obtain ⟨s, here, h⟩ := Option.bind_eq_some_iff.mp h
    simp only [Option.ite_none_right_eq_some, Option.some.injEq] at h
    obtain ⟨hover, rfl⟩ := h
    have hturn := Turn.went here (Posting.goes_leave (hsound here) hover ch)
    rwa [tell_nil] at hturn

end Flow
end OutcomeRelay.Publisher
