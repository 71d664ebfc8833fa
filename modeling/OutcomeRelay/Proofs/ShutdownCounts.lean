import OutcomeRelay.Proofs.BusDeliveries
import OutcomeRelay.Proofs.RelayShutdown

/-!
The counts of a worker against the log of its broker. A delivery that counts as acknowledged was
let go by the broker. One that counts as dead-lettered was given up: the broker dead-lettered it,
unless a new connection had taken it back by then.
-/

namespace OutcomeRelay

instance (b : Broker) (queue : String) (tag : Nat) : Decidable (b.Holds queue tag) :=
  inferInstanceAs (Decidable (∃ g ∈ b.heldMessages queue, g.tag = tag))

namespace Bus.History

def Granted (h : History) (op : Op) : Prop :=
  ∃ e ∈ h.entries, e.op = op ∧ e.reply = .done ∧
    ∀ d ∈ op.delivery?, e.before.Holds d.1 d.2 ∧ ¬ e.after.Holds d.1 d.2

def Denied (h : History) (op : Op) : Prop :=
  ∃ e ∈ h.entries, e.op = op ∧ e.reply ≠ .done

instance (h : History) (op : Op) : Decidable (h.Granted op) :=
  inferInstanceAs (Decidable (∃ e ∈ h.entries, e.op = op ∧ e.reply = .done ∧
    ∀ d ∈ op.delivery?, e.before.Holds d.1 d.2 ∧ ¬ e.after.Holds d.1 d.2))

instance (h : History) (op : Op) : Decidable (h.Denied op) :=
  inferInstanceAs (Decidable (∃ e ∈ h.entries, e.op = op ∧ e.reply ≠ .done))

end Bus.History

namespace Relay

open Bus Broker DeliveryRun

namespace Task

def ack (t : Task) : Op :=
  .ack t.queue t.tag

def discard (t : Task) : Op :=
  .reject t.queue t.tag false

/-- The delivery went where the messages of its queue go that are rejected for good. -/
def DeadLettered (h : History) (t : Task) : Prop :=
  ∃ e ∈ h.entries, e.op = t.discard ∧ ∃ g ∈ e.before.heldMessages t.queue,
    t.job.delivery = delivery t.queue t.tag g.message ∧
    ∀ target, e.before.deadLetterTarget? t.queue = some target → ∀ n,
      (e.arrivals n).length = (e.before.knownTargets target.exchange target.routingKey).count n ∧
      ∀ x ∈ e.arrivals n, x = { deadAt g.message target with copy := x.copy }

section Asked

variable {h : History} {t : Task} {op : Op}

theorem Sound.granted_iff (ht : t.Sound h) (hb : h.Books)
    (hop : op.delivery? = some (t.queue, t.tag)) : h.Granted op ↔ t.Settles op (.ok ()) := by
  constructor
  · rintro ⟨e, he, rfl, hreply, -⟩
    exact ht.settles_of_reply he hop hreply
  · intro hs
    obtain ⟨e, he, rfl, hreply⟩ := ht.asked op _ hs
    refine ⟨e, he, rfl, hreply, fun d hd => ?_⟩
    obtain ⟨s, hbefore, heffect⟩ := (hb.sound e he).effect
    exact hbefore ▸ heffect.settles hd hreply

theorem Sound.denied_iff (ht : t.Sound h) (hop : op.delivery? = some (t.queue, t.tag)) :
    h.Denied op ↔ ∃ x, t.Settles op (.error x) := by
  constructor
  · rintro ⟨e, he, rfl, hreply⟩
    obtain ⟨-, a, hanswer, hs⟩ := ht.answered e he hop
    cases a with
    | ok => exact absurd hanswer hreply
    | error x => exact ⟨x, hs⟩
  · rintro ⟨x, hs⟩
    obtain ⟨e, he, rfl, hreply⟩ := ht.asked op _ hs
    refine ⟨e, he, rfl, ?_⟩
    rw [hreply]
    nofun

theorem Sound.not_granted_of_denied (ht : t.Sound h) (hb : h.Books) {op' : Op}
    (hop : op.delivery? = some (t.queue, t.tag)) (hop' : op'.delivery? = some (t.queue, t.tag))
    (hd : h.Denied op) : ¬ h.Granted op' := by
  obtain ⟨x, hs⟩ := (ht.denied_iff hop).mp hd
  intro hg
  cases (hs.unique ((ht.granted_iff hb hop').mp hg)).2

theorem Sound.not_denied_discard (ht : t.Sound h) (hd : h.Denied t.ack) :
    ¬ h.Denied t.discard := by
  obtain ⟨x, hs⟩ := (ht.denied_iff rfl).mp hd
  intro hd'
  obtain ⟨y, hs'⟩ := (ht.denied_iff rfl).mp hd'
  cases (hs.unique hs').1

theorem Sound.deadLettered (ht : t.Sound h) (hb : h.Books) (hg : h.Granted t.discard) :
    t.DeadLettered h := by
  obtain ⟨e, he, hop, hreply, holds⟩ := hg
  obtain ⟨⟨g, hg, htag⟩, -⟩ := holds (t.queue, t.tag) rfl
  obtain ⟨hfaithful, -⟩ := ht.answered e he (by rw [hop]; rfl)
  refine ⟨e, he, hop, g, hg, (hfaithful g hg htag).2, fun target leads n => ?_⟩
  have hreject : e.op = .reject t.queue g.tag false := by
    rw [htag]
    exact hop
  exact (hb.sound e he).deadLettered hreject hreply hg leads n

end Asked

namespace EndedBy

variable {t : Task} {e : DeliveryEnd}

theorem isAcked_iff (h : t.EndedBy e) : e.isAcked ↔ t.Settles t.ack (.ok ()) := by
  cases h with
  | acked hs => exact ⟨fun _ => hs, fun _ => rfl⟩
  | ackFailed hs => exact ⟨nofun, fun hs' => nomatch (hs.unique hs').2⟩
  | deadLettered hs => exact ⟨nofun, fun hs' => nomatch (hs.unique hs').1⟩
  | panicked never | cutOff never => exact ⟨nofun, fun hs => absurd hs (never _ _)⟩

theorem isAckFailed_iff (h : t.EndedBy e) : e.isAckFailed ↔ ∃ x, t.Settles t.ack (.error x) := by
  cases h with
  | acked hs => exact ⟨nofun, fun ⟨_, hs'⟩ => nomatch (hs.unique hs').2⟩
  | ackFailed hs => exact ⟨fun _ => ⟨_, hs⟩, fun _ => rfl⟩
  | deadLettered hs => exact ⟨nofun, fun ⟨_, hs'⟩ => nomatch (hs.unique hs').1⟩
  | panicked never | cutOff never => exact ⟨nofun, fun ⟨_, hs⟩ => absurd hs (never _ _)⟩

theorem isDeadLettered_iff (h : t.EndedBy e) :
    e.isDeadLettered ↔ ∃ a, t.Settles t.discard a := by
  cases h with
  | acked hs | ackFailed hs => exact ⟨nofun, fun ⟨_, hs'⟩ => nomatch (hs.unique hs').1⟩
  | deadLettered hs => exact ⟨fun _ => ⟨_, hs⟩, fun _ => rfl⟩
  | panicked never | cutOff never => exact ⟨nofun, fun ⟨_, hs⟩ => absurd hs (never _ _)⟩

end EndedBy
end Task

def AllEnded (r : Relay) (k : Nat) : Prop :=
  ∀ t ∈ r.tasks, t.station = k → ∃ e, t.ending = some e ∧ t.EndedBy e

def tally (r : Relay) (k : Nat) (p : Task → Prop) [DecidablePred p] : Nat :=
  r.tasks.countP fun t => t.station = k ∧ p t

section Tallies

variable {r : Relay} {k : Nat}

theorem Ledger.allEnded (hl : Ledger r) {w : Worker} (hw : Tends r.tasks k w)
    (stopped : w.phase = .stopped) : r.AllEnded k := by
  intro t ht hk
  obtain ⟨e, he⟩ := exists_ending (hw.not_isOpen stopped) ht hk
  exact ⟨e, he, (hl.sound t ht).endedBy he⟩

theorem countP_endings (ended : r.AllEnded k) {p : DeliveryEnd → Bool} {q : Task → Prop}
    [DecidablePred q] (hpq : ∀ t ∈ r.tasks, ∀ e, t.EndedBy e → (p e ↔ q t)) :
    (endings r.tasks k).countP p = r.tally k q := by
  unfold endings tally
  rw [List.countP_filterMap]
  refine List.countP_congr fun t ht => ?_
  by_cases hk : t.station = k
  · obtain ⟨e, he, hby⟩ := ended t ht hk
    simp [hk, he, hpq t ht e hby]
  · simp [hk]

theorem tally_or {p q : Task → Prop} [DecidablePred p] [DecidablePred q]
    (apart : ∀ t ∈ r.tasks, q t → ¬ p t) :
    (r.tally k fun t => p t ∨ q t) = r.tally k p + r.tally k q := by
  unfold tally
  rw [List.countP_eq_countP_filter_add _ _ fun t => decide (p t), List.countP_filter,
    List.countP_filter]
  congr 1
  · refine List.countP_congr fun t _ => ?_
    simp only [Bool.and_eq_true, decide_eq_true_eq]
    tauto
  · refine List.countP_congr fun t ht => ?_
    have hapart := apart t ht
    simp only [Bool.and_eq_true, decide_eq_true_eq, Bool.not_eq_true', decide_eq_false_iff_not]
    tauto

theorem Ledger.countP_isAcked (hl : Ledger r) (ended : r.AllEnded k) :
    (endings r.tasks k).countP DeliveryEnd.isAcked =
      r.tally k fun t => r.history.Granted t.ack := by
  refine countP_endings ended fun t ht e hby => ?_
  rw [hby.isAcked_iff, (hl.sound t ht).granted_iff hl.books rfl]

theorem Ledger.countP_isAckFailed (hl : Ledger r) (ended : r.AllEnded k) :
    (endings r.tasks k).countP DeliveryEnd.isAckFailed =
      r.tally k fun t => r.history.Denied t.ack := by
  refine countP_endings ended fun t ht e hby => ?_
  rw [hby.isAckFailed_iff, (hl.sound t ht).denied_iff rfl]

theorem Ledger.countP_isDeadLettered (hl : Ledger r) (ended : r.AllEnded k) :
    (endings r.tasks k).countP DeliveryEnd.isDeadLettered =
      (r.tally k fun t => r.history.Granted t.discard) +
        r.tally k fun t => r.history.Denied t.discard := by
  rw [← tally_or fun t ht => (hl.sound t ht).not_granted_of_denied hl.books rfl rfl]
  refine countP_endings ended fun t ht e hby => ?_
  rw [hby.isDeadLettered_iff, (hl.sound t ht).granted_iff hl.books rfl,
    (hl.sound t ht).denied_iff rfl]
  constructor
  · rintro ⟨_ | _, hs⟩
    · exact .inr ⟨_, hs⟩
    · exact .inl hs
  · rintro (hs | ⟨x, hs⟩)
    · exact ⟨.ok (), hs⟩
    · exact ⟨.error x, hs⟩

end Tallies

structure Truthful (r : Relay) (k : Nat) (s : WorkerSummary) : Prop where
  acked : s.acked = r.tally k fun t => r.history.Granted t.ack
  deadLettered : s.deadLettered = (r.tally k fun t => r.history.Granted t.discard) +
    r.tally k fun t => r.history.Denied t.discard
  ackFailed : s.ackFailed = r.tally k fun t => r.history.Denied t.ack
  refused : ∀ t ∈ r.tasks, r.history.Denied t.ack →
    ¬ r.history.Granted t.ack ∧ ¬ r.history.Granted t.discard ∧ ¬ r.history.Denied t.discard
  kept : ∀ t ∈ r.tasks, r.history.Denied t.discard →
    ¬ r.history.Granted t.ack ∧ ¬ r.history.Granted t.discard
  dead : ∀ t ∈ r.tasks, r.history.Granted t.discard → t.DeadLettered r.history

/-- The counts of a worker that has stopped are those of its deliveries, as the broker has them. -/
theorem truthful_of_stopped (reserved : List String) (moves : List Move) (k : Nat) (st : Station)
    (here : (({ reserved } : Relay).run moves).stations[k]? = some st)
    (stopped : st.worker.phase = .stopped) :
    Truthful (({ reserved } : Relay).run moves) k st.worker.summary := by
  obtain ⟨hl, hr⟩ := inOrder_run reserved moves
  generalize ({ reserved } : Relay).run moves = r at here hl hr
  have htends := hr.tends k st here
  have hcounts := htends.accounts.counts stopped
  have hended : r.AllEnded k := hl.allEnded htends stopped
  refine ⟨hcounts.acked.trans (hl.countP_isAcked hended),
    hcounts.deadLettered.trans (hl.countP_isDeadLettered hended),
    hcounts.ackFailed.trans (hl.countP_isAckFailed hended), ?_, ?_, ?_⟩
  · intro t ht hd
    have hsound := hl.sound t ht
    exact ⟨hsound.not_granted_of_denied hl.books rfl rfl hd,
      hsound.not_granted_of_denied hl.books rfl rfl hd, hsound.not_denied_discard hd⟩
  · intro t ht hd
    have hsound := hl.sound t ht
    exact ⟨hsound.not_granted_of_denied hl.books rfl rfl hd,
      hsound.not_granted_of_denied hl.books rfl rfl hd⟩
  · intro t ht hg
    exact (hl.sound t ht).deadLettered hl.books hg

/-- A worker has two tasks for one message: the first lost it with its connection, before the
message was rejected. -/
def lateRejectRun : List Move := [
  .client (.declareEntity (.exchange ⟨"x", .direct, true⟩)),
  .client (.declareEntity (.queue ⟨"dead", true, none⟩)),
  .client (.declareEntity (.binding ⟨"dead", "x", "dead"⟩)),
  .client (.declareEntity (.queue ⟨"q", true, some ⟨"x", "dead"⟩⟩)),
  .client (.declareEntity (.binding ⟨"q", "x", "k"⟩)),
  .client (.send ⟨"x", "k", [], "m", "", false⟩),
  .hire ⟨"q", (), { concurrency := 2 }, .standard⟩ 0,
  .act 0 (.signal .look), .act 0 (.signal .slotFree), .act 0 .poll,
  .act 0 (.signal .look), .act 0 (.signal .slotFree),
  .client (.setReachable false), .act 0 .poll, .client (.setReachable true),
  .act 0 (.signal .waited), .act 0 .reopen, .act 0 .replace,
  .act 0 (.signal .look), .act 0 (.signal .slotFree), .act 0 .poll,
  .act 0 (.settle 0), .act 0 (.settle 1), .stop 0, .act 0 (.signal .join), .act 0 (.signal .join),
  .act 0 (.signal .look), .act 0 .cancel, .act 0 (.signal .drained), .act 0 .close]

theorem station_lateRejectRun : (({} : Relay).run lateRejectRun).stations[0]?.map
    (fun st => (st.worker.phase, st.worker.summary)) =
      some (.stopped, { queue := "q", deadLettered := 2, reconnects := 1 }) := by decide +kernel

theorem truthful_lateRejectRun : ∃ st, (({} : Relay).run lateRejectRun).stations[0]? = some st ∧
    st.worker.phase = .stopped ∧ st.worker.summary.reconnects = 1 ∧
    Truthful (({} : Relay).run lateRejectRun) 0 st.worker.summary := by
  obtain ⟨st, here, hst⟩ := Option.map_eq_some_iff.mp station_lateRejectRun
  obtain ⟨stopped, hsummary⟩ := Prod.mk.inj hst
  refine ⟨st, here, stopped, by rw [hsummary], ?_⟩
  exact truthful_of_stopped [] lateRejectRun 0 st here stopped

/-- The worker counts both, and the broker dead-lettered one. -/
theorem not_deadLettered_of_lateReject : ¬ ∀ (moves : List Move) (k : Nat) (st : Station),
    (({} : Relay).run moves).stations[k]? = some st → st.worker.phase = .stopped →
      st.worker.summary.deadLettered =
        (({} : Relay).run moves).tally k fun t =>
          (({} : Relay).run moves).history.Granted t.discard := by
  intro hall
  obtain ⟨st, here, hst⟩ := Option.map_eq_some_iff.mp station_lateRejectRun
  obtain ⟨stopped, hsummary⟩ := Prod.mk.inj hst
  have hone : (({} : Relay).run lateRejectRun).tally 0 (fun t =>
      (({} : Relay).run lateRejectRun).history.Granted t.discard) = 1 := by decide +kernel
  have htwo := hall lateRejectRun 0 st here stopped
  rw [hone, hsummary] at htwo
  cases htwo

end Relay
end OutcomeRelay
