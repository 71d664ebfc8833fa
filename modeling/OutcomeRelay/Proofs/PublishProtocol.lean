import OutcomeRelay.Proofs.Machine
import OutcomeRelay.Proofs.PublishCall

/-!
How often a publish call sends. Whatever the transport answers, a call sends its one message until
it is taken or no attempt is left, with one wait between two sends, and never again after that.
-/

namespace OutcomeRelay.Publisher

/-- What surrounds a call: the transport's answer to each send, the first at zero, and how the
confirm ends. -/
structure Network where
  transport : Nat → Except BusError Unit
  resolution : Resolution

namespace Network

def answer (net : Network) (t : Call) : Answer :=
  match t.sending with
  | .attempt .. => .transport (net.transport t.answers.length)
  | .pause .. | .exhausted _ => .elapsed
  | .accepted _ =>
    match t.resolution with
    | none => .resolved net.resolution
    | some _ => .turn

def machine (net : Network) : Machine Call Event where
  step t := t.step (net.answer t)
  log := Call.events
  appends _ _ h := Call.step_events h

end Network

section Steps

variable {c : PublisherConfig} {m : Except PublishError Outbound} {net : Network} {t t' : Call}

structure Call.Follows (t : Call) (net : Network) : Prop where
  answers : t.answers = (List.range t.answers.length).map net.transport
  resolution : ∀ r, t.resolution = some r → r = net.resolution

theorem Call.follows_of_quiet (hf : t.Follows net) {e : Event} (he : t'.events = t.events ++ [e])
    (unanswered : e.answer? = none) (resolved : ∀ r, t'.resolution = some r → r = net.resolution) :
    t'.Follows net := by
  have hsame : t'.answers = t.answers := by simp [answers, he, unanswered]
  exact ⟨hsame ▸ hf.answers, resolved⟩

theorem Stage.follows_step (h : Stage c m t) (hf : t.Follows net)
    (hs : t.step (net.answer t) = some t') : t'.Follows net := by
  cases h with
  | refused | exhausted => cases hs
  | @attempting o as failed left =>
    obtain rfl := Option.some.inj hs
    refine ⟨?_, hf.resolution⟩
    have hanswers := hf.answers
    simp only [Call.answers, answers_rounds] at hanswers
    simp only [Call.answers, List.filterMap_append, answers_rounds, List.length_append,
      List.filterMap_cons, List.filterMap_nil, Event.answer?, List.length_singleton,
      List.range_succ, List.map_append, ← hanswers, List.map_singleton]
  | waiting =>
    obtain rfl := Option.some.inj hs
    exact Call.follows_of_quiet hf rfl rfl hf.resolution
  | watching =>
    obtain rfl := Option.some.inj hs
    exact Call.follows_of_quiet hf rfl rfl fun r hr => (Option.some.inj hr).symm
  | @telling o as r told left =>
    cases left with
    | nil => cases hs
    | cons s rest =>
      obtain rfl := Option.some.inj hs
      exact Call.follows_of_quiet hf rfl rfl hf.resolution

end Steps

section Runs

variable (c : PublisherConfig) (target : RoutingTarget) (p : Publication) (net : Network)

theorem run_stage (n : Nat) :
    Stage c (p.message c target) (net.machine.run (Call.begin c target p) n) :=
  net.machine.run_induction _ (.begin c target p) (fun _ _ h hs => h.step hs) n

theorem run_follows (n : Nat) : (net.machine.run (Call.begin c target p) n).Follows net := by
  have hrun := net.machine.run_induction (Call.begin c target p)
    (P := fun t => Stage c (p.message c target) t ∧ t.Follows net)
    ⟨.begin c target p, rfl, nofun⟩
    (fun _ _ ⟨h, hf⟩ hs => ⟨h.step hs, h.follows_step hf hs⟩) n
  exact hrun.2

end Runs

/-- What a call that is over has done. A call without a message has done nothing. Any other sent its
message `k + 1` times, where the last of these sends is the first that was taken or the last that is
allowed, with one wait between two of them; after that it only told how the confirm ended. -/
def Published (c : PublisherConfig) (target : RoutingTarget) (p : Publication) (net : Network)
    (t : Call) : Prop :=
  match p.validate with
  | .error e => t.result? = some (.error (.invalidEvent e)) ∧ t.events = []
  | .ok _ =>
    if target.exchange = "" ∨ target.routingKey = "" then
      t.result? = some (.error (.invalidTarget target)) ∧ t.events = []
    else
      ∃ o k, o = ⟨target.exchange, target.routingKey, p.body, p.messageId, contentType, c.mandatory⟩ ∧
        k < max c.maxAttempts 1 ∧ (∀ i < k, net.transport i ≠ .ok ()) ∧
        match net.transport k with
        | .ok _ =>
          t.result? = some (.ok ⟨p.messageId, target, k + 1⟩) ∧
          t.events = rounds c o ((List.range k).map net.transport) ++
            [.sent o (.ok ()), .resolved net.resolution] ++ (signals o net.resolution).map .told
        | .error e =>
          k + 1 = max c.maxAttempts 1 ∧
          t.result? = some (.error (.exhausted (max c.maxAttempts 1) e)) ∧
          t.events = rounds c o ((List.range k).map net.transport) ++ [.sent o (.error e)]

theorem Call.Follows.split {net : Network} {t : Call} (hf : t.Follows net)
    (as : List (Except BusError Unit)) (a : Except BusError Unit) (h : t.answers = as ++ [a]) :
    as = (List.range as.length).map net.transport ∧ a = net.transport as.length := by
  have hanswers := hf.answers
  rw [h, List.length_append, List.length_singleton, List.range_succ, List.map_append] at hanswers
  obtain ⟨has, ha⟩ := List.append_inj' hanswers rfl
  exact ⟨has, by simpa using ha⟩

theorem ne_ok_of_range {net : Network} {as : List (Except BusError Unit)}
    (has : as = (List.range as.length).map net.transport) (failed : ∀ a ∈ as, a ≠ .ok ()) :
    ∀ i < as.length, net.transport i ≠ .ok () := by
  intro i hi
  refine failed _ ?_
  rw [has]
  exact List.mem_map_of_mem (List.mem_range.mpr hi)

section Outcome

variable {c : PublisherConfig} {target : RoutingTarget} {p : Publication} {net : Network} {t : Call}

theorem published_of_refused {e : PublishError} (hm : p.message c target = .error e) :
    Published c target p net ⟨c, .error e, .start c, none, [], []⟩ := by
  unfold Published
  rw [Publication.message_eq] at hm
  cases hv : p.validate with
  | error broken =>
    rw [hv] at hm
    cases hm
    exact ⟨rfl, rfl⟩
  | ok u =>
    rw [hv] at hm
    dsimp only at hm ⊢
    split at hm
    · cases hm
      rw [if_pos ‹_›]
      exact ⟨rfl, rfl⟩
    · cases hm

theorem published_of_message {o : Outbound} (hm : p.message c target = .ok o)
    (h : ∃ k, k < c.attempts ∧ (∀ i < k, net.transport i ≠ .ok ()) ∧
      match net.transport k with
      | .ok _ =>
        t.result? = some (.ok ⟨o.messageId, targetOf o, k + 1⟩) ∧
        t.events = rounds c o ((List.range k).map net.transport) ++
          [.sent o (.ok ()), .resolved net.resolution] ++ (signals o net.resolution).map .told
      | .error e =>
        k + 1 = c.attempts ∧
        t.result? = some (.error (.exhausted c.attempts e)) ∧
        t.events = rounds c o ((List.range k).map net.transport) ++ [.sent o (.error e)]) :
    Published c target p net t := by
  obtain ⟨k, hk⟩ := h
  unfold Published
  rw [Publication.message_eq] at hm
  cases hv : p.validate with
  | error broken =>
    rw [hv] at hm
    cases hm
  | ok u =>
    rw [hv] at hm
    dsimp only at hm ⊢
    split at hm
    · cases hm
    · rw [if_neg ‹_›]
      obtain rfl := Except.ok.inj hm
      exact ⟨_, k, rfl, hk⟩

theorem Stage.published (h : Stage c (p.message c target) t) (hf : t.Follows net)
    (hover : net.machine.IsOver t) : Published c target p net t := by
  generalize hm : p.message c target = m at h
  cases h with
  | attempting | waiting | watching => cases hover
  | refused e => exact published_of_refused hm
  | @exhausted o as e failed last =>
    obtain ⟨has, he⟩ := hf.split as (.error e)
      (by simp [Call.answers, answers_rounds, Event.answer?])
    refine published_of_message hm ⟨as.length, by omega, ne_ok_of_range has failed, ?_⟩
    rw [← he, ← has]
    exact ⟨last, rfl, rfl⟩
  | @telling o as r told left failed allowed all =>
    cases left with
    | cons s rest => cases hover
    | nil =>
      obtain rfl := hf.resolution r rfl
      rw [List.append_nil] at all
      obtain ⟨has, ha⟩ := hf.split as (.ok ())
        (by simp [Call.answers, answers_rounds, Event.answer?])
      refine published_of_message hm ⟨as.length, allowed, ne_ok_of_range has failed, ?_⟩
      rw [← ha, ← has, ← all]
      exact ⟨rfl, rfl⟩

end Outcome

end OutcomeRelay.Publisher
