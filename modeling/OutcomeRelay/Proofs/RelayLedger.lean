import OutcomeRelay.Proofs.RelayMoves

/-!
The deliveries that stations took, at any moment of a run. Each is held still, or was settled by its
own task, or came back to its queue; and what its task did is what the log of the broker has of it.
-/

namespace OutcomeRelay

open Bus Broker

namespace DeliveryRun

theorem Trail.begin_unfinished (job : Job) (o : DeliveryOutcome) :
    (Trail.begin job).phase ≠ .finished o := by
  unfold Trail.begin start
  split <;> nofun

theorem Trail.step_unfinished {job : Job} {t t' : Trail} {a : Answer} (outside : ∀ b, a ≠ .broker b)
    (h : t.step job a = some t') (o : DeliveryOutcome) : t'.phase ≠ .finished o := by
  obtain ⟨⟨phase, e⟩, hanswer, rfl⟩ := Option.map_eq_some_iff.mp h
  obtain ⟨p, events⟩ := t
  cases p <;> cases a <;>
    simp only [Phase.answer, Phase.call?, Option.map_some, Option.some.injEq, Prod.mk.injEq,
      reduceCtorEq] at hanswer
  case handling.handler p r =>
    obtain ⟨rfl, -⟩ := hanswer
    unfold Progress.handled
    split
    · simp
    · unfold Progress.failed
      dsimp only
      split <;> simp [giveUp]
  case waiting.elapsed p =>
    obtain ⟨rfl, -⟩ := hanswer
    simp [Progress.handle]
  case acking.broker => exact absurd rfl (outside _)
  case rejecting.broker => exact absurd rfl (outside _)

theorem Stage.unsettled {job : Job} {t : Trail} (h : Stage job t) :
    (∃ o, t.phase = .finished o) ∨ t.calls = [] := by
  cases h with
  | acked a => cases a <;> exact .inl ⟨_, rfl⟩
  | discarded | deadLettered => exact .inl ⟨_, rfl⟩
  | handling => exact .inr (Job.calls_rounds _ _ _)
  | undecodable => exact .inr rfl
  | waiting | acking | exhausted =>
    right
    rw [Trail.calls, List.filterMap_append, Job.calls_rounds]
    rfl

end DeliveryRun

open DeliveryRun

namespace Relay

namespace Task

variable {t : Task}

inductive Settles (t : Task) : Op → Except BusError Unit → Prop where
  | acked {es : List Event} {a : Except BusError Unit}
      (events : t.trail.events = es ++ [.settled .ack a none]) :
      Settles t (.ack t.queue t.tag) a
  | rejected {es : List Event} {x : Reject × DeadLetterRecord} {a : Except BusError Unit}
      (events : t.trail.events = es ++ [.settled (.reject false) a (some x)]) :
      Settles t (.reject t.queue t.tag false) a

def Accepted (h : History) (t : Task) : Prop :=
  ∃ e ∈ h.entries, e.op = .ack t.queue t.tag ∧ e.reply = .done

def Refused (h : History) (t : Task) : Prop :=
  ∃ e ∈ h.entries, e.op = .reject t.queue t.tag false ∧ e.reply = .done

def CameBack (h : History) (t : Task) : Prop :=
  ∃ e ∈ h.entries, ∃ g, e.op = .close t.consumer ∧
    t.job.delivery = delivery t.queue t.tag g.message ∧ g.tag = t.tag ∧
    g ∈ e.before.heldMessages t.queue ∧ g ∉ e.after.heldMessages t.queue ∧
    comeBack g ∈ e.after.readyMessages t.queue

def IsHeld (h : History) (t : Task) : Prop :=
  ∃ g ∈ h.broker.heldMessages t.queue, g.tag = t.tag

def Faithful (b : Broker) (t : Task) : Prop :=
  ∀ g ∈ b.heldMessages t.queue, g.tag = t.tag →
    g.consumer = t.consumer ∧ t.job.delivery = delivery t.queue t.tag g.message

structure Sound (h : History) (t : Task) : Prop where
  given : t.tag ≤ h.broker.lastTag
  faithful : t.Faithful h.broker
  stage : Stage t.job t.trail
  ending : ∀ o, t.ending = some (.settled o) ↔ t.trail.phase = .finished o
  answered : ∀ e ∈ h.entries, e.op.delivery? = some (t.queue, t.tag) →
    t.Faithful e.before ∧ ∃ a, e.reply = .ofResult a ∧ t.Settles e.op a
  asked : ∀ op a, t.Settles op a → ∃ e ∈ h.entries, e.op = op ∧ e.reply = .ofResult a
  placed : t.IsHeld h ∨ t.Accepted h ∨ t.Refused h ∨ t.CameBack h

theorem Settles.finished {op : Op} {a : Except BusError Unit} (h : t.Settles op a)
    (hs : Stage t.job t.trail) : ∃ o, t.trail.phase = .finished o := by
  refine hs.unsettled.resolve_right fun hnone => ?_
  cases h with
  | acked events | rejected events =>
    rw [Trail.calls, events, List.filterMap_append] at hnone
    simp [Event.call?] at hnone

theorem settlement_cases {op : Op} (h : t.settlement? = some op) :
    (∃ n, t.trail.phase = .acking n ∧ op = .ack t.queue t.tag) ∨
      ∃ r, t.trail.phase = .rejecting r ∧ op = .reject t.queue t.tag false := by
  obtain ⟨c, hc, rfl⟩ := Option.map_eq_some_iff.mp h
  unfold Phase.call? at hc
  split at hc
  · next n hphase =>
    cases hc
    exact .inl ⟨n, hphase, rfl⟩
  · next r hphase =>
    cases hc
    exact .inr ⟨r, hphase, rfl⟩
  · cases hc

theorem delivery_settlement {op : Op} (h : t.settlement? = some op) :
    op.delivery? = some (t.queue, t.tag) := by
  rcases settlement_cases h with ⟨n, -, rfl⟩ | ⟨r, -, rfl⟩ <;> rfl

theorem settles_step {op : Op} {a : Except BusError Unit} {trail : Trail}
    (hop : t.settlement? = some op) (h : t.trail.step t.job (.broker a) = some trail)
    (ending : Option DeliveryEnd) :
    ({ t with trail, ending } : Task).Settles op a ∧
      ∀ op' a', ({ t with trail, ending } : Task).Settles op' a' → op' = op ∧ a' = a := by
  obtain ⟨⟨phase, e⟩, hanswer, rfl⟩ := Option.map_eq_some_iff.mp h
  rcases settlement_cases hop with ⟨n, hphase, rfl⟩ | ⟨rj, hphase, rfl⟩
  · rw [hphase] at hanswer
    cases hanswer
    refine ⟨.acked rfl, fun op' a' hs => ?_⟩
    cases hs with
    | acked events =>
      cases (List.append_inj' events rfl).2
      exact ⟨rfl, rfl⟩
    | rejected events => cases (List.append_inj' events rfl).2
  · rw [hphase] at hanswer
    cases hanswer
    refine ⟨.rejected rfl, fun op' a' hs => ?_⟩
    cases hs with
    | acked events => cases (List.append_inj' events rfl).2
    | rejected events =>
      cases (List.append_inj' events rfl).2
      exact ⟨rfl, rfl⟩

theorem not_settles_told {a : Answer} {trail : Trail} (outside : ∀ b, a ≠ .broker b)
    (h : t.trail.step t.job a = some trail) (op : Op) (b : Except BusError Unit) :
    ¬ ({ t with trail } : Task).Settles op b := by
  obtain ⟨⟨phase, e⟩, hanswer, rfl⟩ := Option.map_eq_some_iff.mp h
  have hevent : e.call? = none := by
    revert hanswer
    cases t.trail.phase <;> cases a <;>
      simp only [Phase.answer, Option.some.injEq, Prod.mk.injEq, reduceCtorEq, false_imp_iff]
    all_goals first | exact absurd rfl (outside _) | (rintro ⟨-, rfl⟩; rfl)
  intro hs
  cases hs with
  | acked events | rejected events =>
    cases (List.append_inj' events rfl).2
    cases hevent

namespace Sound

variable {h : History}

/-- A delivery that is settled or comes back stays so, and one that is held is settled by its own
task or comes back. -/
theorem placed_perform (ht : t.Sound h) {op : Op} (hop : op ≠ .reject t.queue t.tag true) :
    t.IsHeld (h.perform op).1 ∨ t.Accepted (h.perform op).1 ∨ t.Refused (h.perform op).1 ∨
      t.CameBack (h.perform op).1 := by
  have hold : ∀ e ∈ h.entries, e ∈ (h.perform op).1.entries := fun e he =>
    List.mem_append_left _ he
  have hnew : h.next op ∈ (h.perform op).1.entries := List.mem_append_right _ (.head _)
  rcases ht.placed with ⟨g, hg, htag⟩ | ⟨e, he, hrest⟩ | ⟨e, he, hrest⟩ | ⟨e, he, hrest⟩
  -- what is not held any more is told of by the log, and the log only grows
  · rcases (perform_effect h.bus op).held_left hg with hg' | ⟨hdelivery, hdone⟩ |
      ⟨hclose, -, hgone, hready⟩
    · exact .inl ⟨g, hg', htag⟩
    · rw [htag] at hdelivery
      cases op with
      | ack n tag =>
        cases hdelivery
        exact .inr (.inl ⟨_, hnew, rfl, hdone⟩)
      | reject n tag back =>
        cases hdelivery
        cases back with
        | true => exact absurd rfl hop
        | false => exact .inr (.inr (.inl ⟨_, hnew, rfl, hdone⟩))
      | _ => cases hdelivery
    · obtain ⟨hconsumer, hjob⟩ := ht.faithful g hg htag
      refine .inr (.inr (.inr ⟨_, hnew, g, ?_, hjob, htag, hg, hgone, hready⟩))
      rw [← hconsumer]
      exact hclose
  · exact .inr (.inl ⟨e, hold e he, hrest⟩)
  · exact .inr (.inr (.inl ⟨e, hold e he, hrest⟩))
  · exact .inr (.inr (.inr ⟨e, hold e he, hrest⟩))

theorem faithful_perform (ht : t.Sound h) (op : Op) : t.Faithful (h.perform op).1.broker := by
  intro g hg htag
  rcases (perform_effect h.bus op).held_cases hg with hg | ⟨-, -, hnew, -⟩
  · exact ht.faithful g hg htag
  · have hgiven := ht.given
    have hlast : h.bus.broker.lastTag = h.broker.lastTag := rfl
    omega

theorem perform (ht : t.Sound h) {op : Op} (hop : op.delivery? ≠ some (t.queue, t.tag)) :
    t.Sound (h.perform op).1 := by
  refine ⟨Nat.le_trans ht.given (perform_effect h.bus op).lastTag, ht.faithful_perform op, ht.stage,
    ht.ending, fun e he hdelivery => ?_, fun op' a hs => ?_, ht.placed_perform ?_⟩
  · rcases List.mem_append.mp he with he | he
    · exact ht.answered e he hdelivery
    · rw [List.mem_singleton.mp he] at hdelivery
      exact absurd hdelivery hop
  · obtain ⟨e, he, hrest⟩ := ht.asked op' a hs
    exact ⟨e, List.mem_append_left _ he, hrest⟩
  · rintro rfl
    exact hop rfl

theorem not_named (ht : t.Sound h) (hopen : t.ending = none) {e : Entry} (he : e ∈ h.entries) :
    e.op.delivery? ≠ some (t.queue, t.tag) := by
  intro hdelivery
  obtain ⟨-, a, -, hs⟩ := ht.answered e he hdelivery
  obtain ⟨o, ho⟩ := hs.finished ht.stage
  rw [(ht.ending o).mpr ho] at hopen
  cases hopen

theorem told (ht : t.Sound h) (hopen : t.ending = none) {a : Answer} {trail : Trail}
    (outside : ∀ b, a ≠ .broker b) (hstep : t.trail.step t.job a = some trail) :
    ({ t with trail } : Task).Sound h := by
  refine ⟨ht.given, ht.faithful, ht.stage.step hstep, fun o => ?_, fun e he hdelivery => ?_,
    fun op b hs => ?_, ht.placed⟩
  · dsimp only
    rw [hopen]
    exact ⟨nofun, fun ho => absurd ho (Trail.step_unfinished outside hstep o)⟩
  · exact absurd hdelivery (ht.not_named hopen he)
  · exact absurd hs (not_settles_told outside hstep op b)

theorem left (ht : t.Sound h) (hopen : t.ending = none) {e : DeliveryEnd}
    (unsettled : ∀ o, e ≠ .settled o) : ({ t with ending := some e } : Task).Sound h := by
  refine ⟨ht.given, ht.faithful, ht.stage, fun o => ?_, fun e' he' hdelivery => ?_,
    fun op b hs => ?_, ht.placed⟩
  · refine ⟨fun heq => absurd (Option.some.inj heq) (unsettled o), fun ho => ?_⟩
    rw [(ht.ending o).mpr ho] at hopen
    cases hopen
  · exact absurd hdelivery (ht.not_named hopen he')
  · obtain ⟨o, ho⟩ := hs.finished ht.stage
    rw [(ht.ending o).mpr ho] at hopen
    cases hopen

theorem settled (ht : t.Sound h) (hopen : t.ending = none) {op : Op} {trail : Trail}
    {o : DeliveryOutcome} (asks : t.settlement? = some op)
    (hstep : t.trail.step t.job (.broker (h.perform op).2.answer) = some trail)
    (hfinished : trail.phase = .finished o) :
    ({ t with trail, ending := some (.settled o) } : Task).Sound (h.perform op).1 := by
  obtain ⟨hsettles, honly⟩ := settles_step asks hstep (some (.settled o))
  have hreply : (h.next op).reply = .ofResult (h.perform op).2.answer :=
    reply_of_delivery (delivery_settlement asks)
  refine ⟨Nat.le_trans ht.given (perform_effect h.bus op).lastTag, ht.faithful_perform op,
    ht.stage.step hstep, fun o' => ?_, fun e he hdelivery => ?_, fun op' a hs => ?_,
    ht.placed_perform ?_⟩
  · dsimp only
    rw [hfinished]
    constructor <;> intro heq <;> cases heq <;> rfl
  · rcases List.mem_append.mp he with he | he
    · exact absurd hdelivery (ht.not_named hopen he)
    · rw [List.mem_singleton.mp he]
      exact ⟨ht.faithful, _, hreply, hsettles⟩
  · obtain ⟨rfl, rfl⟩ := honly op' a hs
    exact ⟨_, List.mem_append_right _ (.head _), rfl, hreply⟩
  · rintro rfl
    rcases settlement_cases asks with ⟨n, -, hop⟩ | ⟨r, -, hop⟩ <;> cases hop

theorem begin {id : Nat} {d : Delivery} (hb : h.Books)
    (hnamed : ∀ e ∈ h.entries, ∀ n tag, e.op.delivery? = some (n, tag) → tag ≤ h.broker.lastTag)
    (hreply : (h.perform (.poll id)).2 = .polled (.delivered d)) (k : Nat) (policy : RetryPolicy) :
    (Task.begin k id ⟨d, policy⟩).Sound (h.perform (.poll id)).1 := by
  obtain ⟨n, m, hqueue, rfl, hheld, hlast⟩ := held_of_delivered hreply
  have hbooks := hb.perform (.poll id)
  refine ⟨Nat.le_of_eq hlast.symm, fun g hg htag => ?_, Stage.begin _, fun o => ?_,
    fun e he hdelivery => ?_, fun op a hs => ?_, .inl ⟨_, hheld, rfl⟩⟩
  · obtain rfl := hbooks.tagged.eq_of_tag hg hheld htag
    exact ⟨rfl, rfl⟩
  · exact ⟨nofun, fun ho => absurd ho (Trail.begin_unfinished _ o)⟩
  · rcases List.mem_append.mp he with he | he
    -- the tag is new, and the log names no tag that was not given
    · have hle := hnamed e he _ _ hdelivery
      have htag : (Task.begin k id ⟨delivery n (h.bus.broker.lastTag + 1) m, policy⟩).tag =
        h.broker.lastTag + 1 := rfl
      omega
    · rw [List.mem_singleton.mp he] at hdelivery
      cases hdelivery
  · cases hs with
    | acked events | rejected events => exact absurd events (by simp [Task.begin, Trail.begin])

end Sound
end Task
structure Ledger (r : Relay) : Prop where
  reached : ∃ ops, r.history = History.run ops
  named : ∀ e ∈ r.history.entries, ∀ n tag, e.op.delivery? = some (n, tag) →
    tag ≤ r.history.broker.lastTag
  ordered : (r.tasks.map Task.tag).Pairwise (· < ·)
  sound : ∀ t ∈ r.tasks, t.Sound r.history
  reserved : ∀ n ∈ r.reserved, ∀ g ∈ r.history.broker.heldMessages n,
    (n, g.tag) ∈ r.tasks.map fun t => (t.queue, t.tag)
  settlers : ∀ n ∈ r.reserved, ∀ e ∈ r.history.entries, ∀ tag, e.settled? = some (n, tag) →
    (n, tag) ∈ r.tasks.map fun t => (t.queue, t.tag)

namespace Ledger

variable {r r' : Relay}

theorem books (hl : Ledger r) : r.history.Books := by
  obtain ⟨ops, hops⟩ := hl.reached
  exact hops ▸ History.books_run ops

theorem registered (hl : Ledger r) : Registered r.history.bus := by
  obtain ⟨ops, hops⟩ := hl.reached
  exact hops ▸ registered_run ops

theorem reached_perform (hl : Ledger r) (op : Op) :
    ∃ ops, (r.history.perform op).1 = History.run ops := by
  obtain ⟨ops, hops⟩ := hl.reached
  exact ⟨ops ++ [op], by rw [History.run_concat, hops]⟩

theorem named_perform (hl : Ledger r) {op : Op}
    (hop : ∀ n tag, op.delivery? = some (n, tag) → tag ≤ r.history.broker.lastTag) :
    ∀ e ∈ (r.history.perform op).1.entries, ∀ n tag, e.op.delivery? = some (n, tag) →
      tag ≤ (r.history.perform op).1.broker.lastTag := by
  intro e he n tag hdelivery
  refine Nat.le_trans ?_ (perform_effect r.history.bus op).lastTag
  rcases List.mem_append.mp he with he | he
  · exact hl.named e he n tag hdelivery
  · rw [List.mem_singleton.mp he] at hdelivery
    exact hop n tag hdelivery

theorem eq_of_tag (hl : Ledger r) {i j : Nat} {t u : Task} (ht : r.tasks[i]? = some t)
    (hu : r.tasks[j]? = some u) (htag : t.tag = u.tag) : i = j := by
  have hnodup : (r.tasks.map Task.tag).Nodup := hl.ordered.imp Nat.ne_of_lt
  have hi : i < (r.tasks.map Task.tag).length := by
    rw [List.length_map]
    exact (List.getElem?_eq_some_iff.mp ht).1
  refine (List.getElem?_inj hi hnodup).mp ?_
  rw [List.getElem?_map, List.getElem?_map, ht, hu, Option.map_some, Option.map_some, htag]

theorem mem_set_cases {l : List Task} {i : Nat} {a t : Task} (h : t ∈ l.set i a) :
    t = a ∨ ∃ j, j ≠ i ∧ l[j]? = some t := by
  obtain ⟨j, hj⟩ := List.mem_iff_getElem?.mp h
  rw [List.getElem?_set] at hj
  split at hj
  · split at hj
    · exact .inl (Option.some.inj hj).symm
    · cases hj
  · next hne => exact .inr ⟨j, Ne.symm hne, hj⟩

theorem map_set {β : Type} (f : Task → β) {i : Nat} {t : Task} (ht : r.tasks[i]? = some t)
    (u : Task) (hf : f u = f t) : (r.tasks.set i u).map f = r.tasks.map f := by
  rw [List.map_set, hf]
  obtain ⟨hi, hti⟩ := List.getElem?_eq_some_iff.mp ht
  have hmap : i < (r.tasks.map f).length := by rwa [List.length_map]
  have hget : f t = (r.tasks.map f)[i] := by rw [List.getElem_map, hti]
  rw [hget, List.set_getElem_self]

theorem ordered_set (hl : Ledger r) {i : Nat} {t : Task} (ht : r.tasks[i]? = some t) (u : Task)
    (htag : u.tag = t.tag) : ((r.tasks.set i u).map Task.tag).Pairwise (· < ·) := by
  rw [map_set Task.tag ht u htag]
  exact hl.ordered

theorem init (reserved : List String) : Ledger { reserved } where
  reached := ⟨[], rfl⟩
  named := by simp
  ordered := .nil
  sound _ ht := absurd ht List.not_mem_nil
  reserved _ _ _ hg := absurd hg List.not_mem_nil
  settlers _ _ _ he := absurd he List.not_mem_nil

theorem reserved_perform (hl : Ledger r) {op : Op}
    (hop : ∀ id d n, op = .poll id → (r.history.perform op).2 = .polled (.delivered d) →
      r.history.bus.queueOf? id = some n → n ∉ r.reserved) :
    ∀ n ∈ r.reserved, ∀ g ∈ (r.history.perform op).1.broker.heldMessages n,
      (n, g.tag) ∈ r.tasks.map fun t => (t.queue, t.tag) := by
  intro n hn g hg
  rcases (perform_effect r.history.bus op).held_cases hg with hg | ⟨hpoll, hqueue, -, hreply⟩
  · exact hl.reserved n hn g hg
  · exact absurd hn (hop _ _ n hpoll hreply hqueue)

theorem settlers_perform (hl : Ledger r) (op : Op) :
    ∀ n ∈ r.reserved, ∀ e ∈ (r.history.perform op).1.entries, ∀ tag, e.settled? = some (n, tag) →
      (n, tag) ∈ r.tasks.map fun t => (t.queue, t.tag) := by
  intro n hn e he tag hsettled
  rcases List.mem_append.mp he with he | he
  · exact hl.settlers n hn e he tag hsettled
  · rw [List.mem_singleton.mp he] at hsettled
    obtain ⟨g, hg, rfl⟩ := (hl.books.sound_next op).settled hsettled
    exact hl.reserved n hn g hg

theorem set_task (hl : Ledger r) {i : Nat} {t u : Task} (there : r.tasks[i]? = some t)
    (hsound : u.Sound r.history) (hu : (u.queue, u.tag) = (t.queue, t.tag))
    (stations : List Station) : Ledger ⟨r.history, r.reserved, stations, r.tasks.set i u⟩ := by
  have hkeys := map_set (fun t => (t.queue, t.tag)) there u hu
  refine ⟨hl.reached, hl.named, hl.ordered_set there u (Prod.mk.inj hu).2, fun v hv => ?_,
    fun n hn g hg => hkeys ▸ hl.reserved n hn g hg,
    fun n hn e he tag hsettled => hkeys ▸ hl.settlers n hn e he tag hsettled⟩
  rcases List.mem_or_eq_of_mem_set hv with hv | rfl
  · exact hl.sound v hv
  · exact hsound

theorem received (hl : Ledger r) (k : Nat) {id : Nat} {d : Delivery} (policy : RetryPolicy)
    (reply : (r.history.perform (.poll id)).2 = .polled (.delivered d)) (stations : List Station) :
    Ledger ⟨(r.history.perform (.poll id)).1, r.reserved, stations,
      r.tasks ++ [Task.begin k id ⟨d, policy⟩]⟩ := by
  obtain ⟨n, m, hqueue, rfl, hheld, hlast⟩ := held_of_delivered reply
  refine ⟨hl.reached_perform _, hl.named_perform nofun, ?_, fun t ht => ?_, fun n' hn g hg => ?_,
    fun n' hn e he tag hsettled => ?_⟩
  · dsimp only
    rw [List.map_append]
    refine List.pairwise_append.mpr ⟨hl.ordered, List.pairwise_singleton _ _, fun a ha b hb => ?_⟩
    obtain ⟨t, ht, rfl⟩ := List.mem_map.mp ha
    rw [List.mem_singleton.mp hb]
    exact Nat.lt_succ_of_le (hl.sound t ht).given
  · rcases List.mem_append.mp ht with ht | ht
    · exact (hl.sound t ht).perform nofun
    · rw [List.mem_singleton.mp ht]
      exact .begin hl.books hl.named reply k policy
  · dsimp only at hg ⊢
    rw [List.map_append]
    rcases (perform_effect r.history.bus _).held_cases hg with hg | ⟨hpoll, hqueue', htag, -⟩
    · exact List.mem_append_left _ (hl.reserved n' hn g hg)
    · cases hpoll
      rw [hqueue] at hqueue'
      cases hqueue'
      rw [htag]
      exact List.mem_append_right _ (.head _)
  · dsimp only
    rw [List.map_append]
    exact List.mem_append_left _ (hl.settlers_perform _ n' hn e he tag hsettled)

theorem settled (hl : Ledger r) {i : Nat} {t : Task} {op : Op} {trail : Trail} {o : DeliveryOutcome}
    (there : r.tasks[i]? = some t) (unended : t.ending = none) (asks : t.settlement? = some op)
    (step : t.trail.step t.job (.broker (r.history.perform op).2.answer) = some trail)
    (finished : trail.phase = .finished o) (stations : List Station) :
    Ledger ⟨(r.history.perform op).1, r.reserved, stations,
      r.tasks.set i { t with trail, ending := some (.settled o) }⟩ := by
  have hdelivery := Task.delivery_settlement asks
  have ht := hl.sound t (List.mem_of_getElem? there)
  have hkeys := map_set (fun t => (t.queue, t.tag)) there
    { t with trail, ending := some (.settled o) } rfl
  refine ⟨hl.reached_perform op, hl.named_perform fun n tag hop => ?_, hl.ordered_set there _ rfl,
    fun u hu => ?_, fun n hn g hg => hkeys ▸ hl.reserved_perform (fun id d n hop => ?_) n hn g hg,
    fun n hn e he tag hsettled => hkeys ▸ hl.settlers_perform op n hn e he tag hsettled⟩
  · rw [hdelivery] at hop
    cases hop
    exact ht.given
  · rcases mem_set_cases hu with rfl | ⟨j, hj, hu⟩
    · exact ht.settled unended asks step finished
    · -- another task has another tag, so that the operation is not about its delivery
      refine (hl.sound u (List.mem_of_getElem? hu)).perform fun hop => hj ?_
      rw [hdelivery] at hop
      exact hl.eq_of_tag hu there (congrArg Prod.snd (Option.some.inj hop)).symm
  · subst hop
    cases hdelivery

theorem course (hl : Ledger r) (hreserved : r'.reserved = r.reserved) (hc : Course r r') :
    Ledger r' := by
  obtain ⟨history', reserved', stations', tasks'⟩ := r'
  dsimp only at hreserved
  cases hc with
  | same history tasks =>
    dsimp only at history tasks
    subst hreserved history tasks
    exact ⟨hl.reached, hl.named, hl.ordered, hl.sound, hl.reserved, hl.settlers⟩
  | other op history tasks named unreserved =>
    dsimp only at history tasks
    subst hreserved history tasks
    refine ⟨hl.reached_perform op, hl.named_perform fun n tag hop => (named n tag hop).1,
      hl.ordered, fun t ht => (hl.sound t ht).perform fun hop => ?_, hl.reserved_perform unreserved,
      hl.settlers_perform op⟩
    exact (named _ _ hop).2 t ht ⟨rfl, rfl⟩
  | received k id d policy reply history tasks =>
    dsimp only at history tasks
    subst hreserved history tasks
    exact hl.received k policy reply stations'
  | told i t a trail there unended outside step history tasks =>
    dsimp only at history tasks
    subst hreserved history tasks
    have ht := hl.sound t (List.mem_of_getElem? there)
    exact hl.set_task there (ht.told unended outside step) rfl stations'
  | settled i t op trail o there unended asks step finished history tasks =>
    dsimp only at history tasks
    subst hreserved history tasks
    exact hl.settled there unended asks step finished stations'
  | left i t e there unended unsettled history tasks =>
    dsimp only at history tasks
    subst hreserved history tasks
    have ht := hl.sound t (List.mem_of_getElem? there)
    exact hl.set_task there (ht.left unended unsettled) rfl stations'

end Ledger
end Relay
end OutcomeRelay
