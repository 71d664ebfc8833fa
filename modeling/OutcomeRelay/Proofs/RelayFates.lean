import OutcomeRelay.Proofs.DeclaredTopology
import OutcomeRelay.Proofs.RelayShutdown

/-!
What becomes of a message in a work queue. At every moment of a run a copy waits, or is held, or
was acknowledged after its handler succeeded, or went to the dead-letter queue after it was given
up. It is never two of these, and never none.
-/

namespace OutcomeRelay

structure WorkQueue where
  queue : String
  target : DeadLetterTarget
  dlq : String
  deriving DecidableEq, Repr

namespace TopologyNames

def workQueues (n : TopologyNames) : List WorkQueue := [
  ⟨n.successQueue, ⟨n.dlxExchange, n.successDlqRoutingKey⟩, n.successDlq⟩,
  ⟨n.failedQueue, ⟨n.dlxExchange, n.failedDlqRoutingKey⟩, n.failedDlq⟩]

theorem deadRoute_of_validate {n : TopologyNames} (h : n.topology.validate = .ok ()) {w : WorkQueue}
    (hw : w ∈ n.workQueues) :
    (({} : Broker).declare n.topology).1.DeadRoute w.queue w.target w.dlq := by
  have hsound := Topology.sound_of_validate h
  have hthere := (Broker.declare_of_validate h).2
  have hdlx : (⟨n.dlxExchange, .direct, true⟩ : ExchangeSpec) ∈ n.topology.exchanges :=
    .tail _ (.head _)
  rcases List.mem_cons.mp hw with rfl | hw
  · exact hthere.deadRoute hsound (q := ⟨n.successQueue, true, _⟩) (d := ⟨n.successDlq, true, none⟩)
      (by simp [topology]) (by simp [topology]) hdlx rfl rfl (by simp [topology])
  · rw [List.mem_singleton.mp hw]
    exact hthere.deadRoute hsound (q := ⟨n.failedQueue, true, _⟩) (d := ⟨n.failedDlq, true, none⟩)
      (by simp [topology]) (by simp [topology]) hdlx rfl rfl (by simp [topology])

end TopologyNames

open Bus Broker DeliveryRun

namespace Bus

namespace Entry

variable {e : Entry} {n : String} {tag : Nat}

theorem settled?_of_ack (hop : e.op = .ack n tag) (hdone : e.reply = .done) :
    e.settled? = some (n, tag) := by
  rw [settled?, hop, hdone]

theorem settled?_of_reject (hop : e.op = .reject n tag false) (hdone : e.reply = .done) :
    e.settled? = some (n, tag) := by
  rw [settled?, hop, hdone]

theorem done_of_settled (h : e.settled? = some (n, tag)) :
    e.op.delivery? = some (n, tag) ∧ e.reply = .done := by
  unfold settled? at h
  split at h
  · next hop hdone =>
    rw [hop]
    exact ⟨h, hdone⟩
  · next hop hdone =>
    rw [hop]
    exact ⟨h, hdone⟩
  · cases h

end Entry

structure History.Since (b : Broker) (h : History) : Prop where
  now : Extends b h.broker
  always : ∀ e ∈ h.entries, ∀ d, e.op.delivery? = some d → Extends b e.before

theorem History.Since.perform {b : Broker} {h : History} (hs : h.Since b) (op : Op) :
    (h.perform op).1.Since b := by
  refine ⟨hs.now.trans (perform_effect h.bus op).graph, fun e he d hd => ?_⟩
  rcases List.mem_append.mp he with he | he
  · exact hs.always e he d hd
  · rw [List.mem_singleton.mp he]
    exact hs.now

end Bus

namespace DeliveryRun

theorem Stage.settled_cases {job : Job} {t : Trail} {es : List Event} {e : Event} (h : Stage job t)
    (events : t.events = es ++ [e]) (settles : e.call?.isSome) :
    (∃ fields n es' a, PaymentMessage.decode job.delivery.body = .ok fields ∧
      es = es' ++ [.invoked (job.message fields n) .done] ∧ e = .settled .ack a none) ∨
    ∃ n chain a, e = job.recovery n chain a ∧
      ((∃ err, PaymentMessage.decode job.delivery.body = .error err ∧ es = []) ∨
        ((es.filterMap Event.result?).length = job.maxAttempts ∧
          ∀ r ∈ es.filterMap Event.result?, r ≠ .done)) := by
  have hover : ∃ o, t.phase = .finished o := by
    refine h.unsettled.resolve_right fun hnone => ?_
    obtain ⟨c, hc⟩ := Option.isSome_iff_exists.mp settles
    rw [Trail.calls, events, List.filterMap_append] at hnone
    simp [hc] at hnone
  obtain ⟨o, ho⟩ := hover
  cases h with
  | handling | waiting | acking | undecodable | exhausted => cases ho
  | @acked fields rs a decoded =>
    obtain ⟨rfl, hlast⟩ := List.append_inj' ((List.append_assoc _ [_] [_]).trans events) rfl
    cases hlast
    exact .inl ⟨fields, rs.length + 1, _, a, decoded, rfl, rfl⟩
  | @discarded err a refused =>
    obtain ⟨rfl, hlast⟩ :=
      List.append_inj' ((List.nil_append [job.recovery 0 err.chain a]).trans events) rfl
    cases hlast
    exact .inr ⟨0, err.chain, a, rfl, .inl ⟨err, refused, rfl⟩⟩
  | @deadLettered fields rs r err a decoded failed failure last =>
    obtain ⟨rfl, hlast⟩ := List.append_inj' ((List.append_assoc _ [_] [_]).trans events) rfl
    cases hlast
    rw [Job.results_rounds_concat]
    have hlength : (rs ++ [r]).length = job.maxAttempts := by rw [← last, List.length_append]; rfl
    exact .inr ⟨job.maxAttempts, err.texts, a, rfl,
      .inr ⟨hlength, HandlerResult.ne_done_concat failed failure⟩⟩

end DeliveryRun

namespace Relay

namespace Task

variable {t : Task}

def Succeeded (t : Task) : Prop :=
  ∃ fields n es, PaymentMessage.decode t.job.delivery.body = .ok fields ∧
    t.trail.events = es ++
      [.invoked (t.job.message fields n) .done, .settled .ack (.ok ()) none]

/-- The message could not be read, or as many invocations failed as there may be; then the delivery
was rejected for good. -/
def GaveUp (t : Task) : Prop :=
  ∃ es recovery, t.trail.events = es ++ [.settled (.reject false) (.ok ()) (some recovery)] ∧
    ((∃ e, PaymentMessage.decode t.job.delivery.body = .error e ∧ es = []) ∨
      ((es.filterMap Event.result?).length = t.job.maxAttempts ∧
        ∀ r ∈ es.filterMap Event.result?, r ≠ .done))

theorem succeeded_of_settles (hs : Stage t.job t.trail)
    (h : t.Settles (.ack t.queue t.tag) (.ok ())) : t.Succeeded := by
  cases h with
  | @acked es _ events =>
    rcases hs.settled_cases events rfl with
      ⟨fields, n, es', a, decoded, rfl, -⟩ | ⟨n, chain, a, he, -⟩
    · exact ⟨fields, n, es', decoded, events.trans (List.append_assoc _ [_] [_])⟩
    · cases he

theorem gaveUp_of_settles (hs : Stage t.job t.trail)
    (h : t.Settles (.reject t.queue t.tag false) (.ok ())) : t.GaveUp := by
  cases h with
  | @rejected es x _ events =>
    rcases hs.settled_cases events rfl with ⟨_, _, _, _, -, -, he⟩ | ⟨n, chain, a, -, hcause⟩
    · cases he
    · exact ⟨es, x, events, hcause⟩

end Task

structure Settlement (r : Relay) (queue : String) (tag copy : Nat) (op : Op) (e : Entry)
    (g : HeldMessage) (t : Task) : Prop where
  logged : e ∈ r.history.entries
  asked : e.op = op
  done : e.reply = .done
  held : g ∈ e.before.heldMessages queue
  under : g.tag = tag
  same : g.message.copy = copy
  taken : t ∈ r.tasks
  delivered : t.job.delivery = delivery queue tag g.message

inductive Fate where
  | waiting (position : Nat)
  | held (tag : Nat)
  | acknowledged (tag : Nat)
  | deadLettered (tag : Nat)
  deriving DecidableEq, Repr

/-- A copy in a work queue has this fate. A dead-lettered one is in the dead-letter queue then,
once and with the count of its deaths. -/
def Fate.Holds (r : Relay) (w : WorkQueue) (copy : Nat) : Fate → Prop
  | .waiting position => r.history.broker.Has copy (.ready w.queue position)
  | .held tag => r.history.broker.Has copy (.held w.queue tag)
  | .acknowledged tag =>
    ∃ e g t, Settlement r w.queue tag copy (.ack w.queue tag) e g t ∧ t.Succeeded
  | .deadLettered tag =>
    ∃ e g t, Settlement r w.queue tag copy (.reject w.queue tag false) e g t ∧ t.GaveUp ∧
      ∃ m, e.arrivals w.dlq = [m] ∧ m = { deadAt g.message w.target with copy := m.copy }

section Settlements

variable {r : Relay} {n : String} {tag tag' copy : Nat} {op op' : Op} {e e' : Entry}
  {g g' : HeldMessage} {t t' : Task}

theorem Settlement.gone (h : Settlement r n tag copy op e g t) (hs : e.settled? = some (n, tag)) :
    r.history.Gone copy :=
  ⟨e, h.logged, n, tag, hs, g, h.held, h.under, h.same⟩

theorem Settlement.key (h : Settlement r n tag copy op e g t) : (t.queue, t.tag) = (n, tag) := by
  rw [Task.queue, Task.tag, h.delivered]
  rfl

namespace Ledger

theorem eq_of_mem_tag (hl : Ledger r) (ht : t ∈ r.tasks) (ht' : t' ∈ r.tasks)
    (htag : t.tag = t'.tag) : t = t' := by
  obtain ⟨i, hi⟩ := List.mem_iff_getElem?.mp ht
  obtain ⟨j, hj⟩ := List.mem_iff_getElem?.mp ht'
  obtain rfl := hl.eq_of_tag hi hj htag
  exact Option.some.inj (hi.symm.trans hj)

theorem settlement (hl : Ledger r) (hn : n ∈ r.reserved) (he : e ∈ r.history.entries)
    (hs : e.settled? = some (n, g.tag)) (hg : g ∈ e.before.heldMessages n) :
    ∃ t, Settlement r n g.tag g.message.copy e.op e g t ∧ t.Settles e.op (.ok ()) := by
  obtain ⟨hdelivery, hdone⟩ := Entry.done_of_settled hs
  obtain ⟨t, ht, hkey⟩ := List.mem_map.mp (hl.settlers n hn e he g.tag hs)
  obtain ⟨rfl, htag⟩ := Prod.mk.inj hkey
  obtain ⟨hfaithful, a, hreply, hsettles⟩ :=
    (hl.sound t ht).answered e he (hdelivery.trans (congrArg some hkey.symm))
  rw [hdone] at hreply
  cases a with
  | error => cases hreply
  | ok =>
    refine ⟨t, ⟨he, rfl, hdone, hg, rfl, rfl, ht, ?_⟩, hsettles⟩
    rw [← htag]
    exact (hfaithful g hg htag.symm).2

theorem settlement_unique (hl : Ledger r) (h : Settlement r n tag copy op e g t)
    (hs : e.settled? = some (n, tag)) (h' : Settlement r n tag' copy op' e' g' t')
    (hs' : e'.settled? = some (n, tag')) : op = op' := by
  have hdeparted := hl.books.mem_departed h.logged (h.under ▸ hs) h.held
  have hdeparted' := hl.books.mem_departed h'.logged (h'.under ▸ hs') h'.held
  obtain ⟨-, hnodup, -⟩ := List.nodup_append.mp (hl.books.nodup n)
  -- the departed copies differ, so that both were held under one tag, for one task
  obtain rfl := List.inj_on_of_nodup_map hnodup hdeparted hdeparted' (h.same.trans h'.same.symm)
  obtain rfl : tag = tag' := h.under.symm.trans h'.under
  obtain rfl := hl.eq_of_mem_tag h.taken h'.taken
    (congrArg Prod.snd (h.key.trans h'.key.symm))
  have hsound := hl.sound t h.taken
  obtain ⟨-, a, -, hsettles⟩ := hsound.answered e h.logged
    ((Entry.done_of_settled hs).1.trans (congrArg some h.key.symm))
  obtain ⟨-, a', -, hsettles'⟩ := hsound.answered e' h'.logged
    ((Entry.done_of_settled hs').1.trans (congrArg some h.key.symm))
  rw [← h.asked, ← h'.asked]
  exact (hsettles.unique hsettles').1

end Ledger
end Settlements

section Fates

variable {r : Relay} {w : WorkQueue} {m : StoredMessage}

theorem Ledger.fate_of_gone (hl : Ledger r) (hn : w.queue ∈ r.reserved)
    (hroute : ∀ e ∈ r.history.entries, ∀ d, e.op.delivery? = some d →
      e.before.DeadRoute w.queue w.target w.dlq)
    (hm : m ∈ r.history.arrived w.queue) (hgone : r.history.Gone m.copy) :
    ∃ f : Fate, f.Holds r w m.copy := by
  obtain ⟨e, he, n, tag, hs, g, hg, rfl, hcopy⟩ := hgone
  have hdeparted := hl.books.mem_departed he hs hg
  obtain rfl : n = w.queue :=
    hl.books.queue_eq hm (List.mem_append_right _ (List.mem_map.mpr ⟨g, hdeparted, hcopy⟩))
  obtain ⟨t, hsettlement, hsettles⟩ := hl.settlement hn he hs hg
  obtain ⟨hqueue, htag⟩ := Prod.mk.inj hsettlement.key
  have hstage := (hl.sound t hsettlement.taken).stage
  obtain ⟨hdelivery, hdone⟩ := Entry.done_of_settled hs
  rw [hcopy] at hsettlement
  -- what the task did last says which operation it was
  generalize hop : e.op = op at hsettlement hsettles
  cases hsettles with
  | acked events =>
    rw [hqueue, htag] at hsettlement
    have hdone := Task.succeeded_of_settles hstage (.acked events)
    exact ⟨.acknowledged g.tag, e, g, t, hsettlement, hdone⟩
  | rejected events =>
    rw [hqueue, htag] at hsettlement hop
    have hdead := hroute e he _ hdelivery
    obtain ⟨hcount, halike⟩ := (hl.books.sound e he).deadLettered hop hdone hg hdead.leads w.dlq
    obtain ⟨x, hx⟩ := List.length_eq_one_iff.mp (hcount.trans hdead.count)
    have hgave := Task.gaveUp_of_settles hstage (.rejected events)
    refine ⟨.deadLettered g.tag, e, g, t, hsettlement, hgave, x, hx, halike x ?_⟩
    rw [hx]
    exact .head _

def Fate.place? (queue : String) : Fate → Option Place
  | .waiting position => some (.ready queue position)
  | .held tag => some (.held queue tag)
  | _ => none

def Fate.op? (queue : String) : Fate → Option Op
  | .acknowledged tag => some (.ack queue tag)
  | .deadLettered tag => some (.reject queue tag false)
  | _ => none

namespace Fate

variable {f f' : Fate} {queue : String}

theorem eq_of_place? {p : Place} (h : f.place? queue = some p) (h' : f'.place? queue = some p) :
    f = f' := by
  cases f <;> cases h <;> cases f' <;> cases h' <;> rfl

theorem eq_of_op? {op : Op} (h : f.op? queue = some op) (h' : f'.op? queue = some op) : f = f' := by
  cases f <;> cases h <;> cases f' <;> cases h' <;> rfl

theorem Holds.cases {copy : Nat} (h : f.Holds r w copy) :
    (∃ p, f.place? w.queue = some p ∧ r.history.broker.Has copy p) ∨
    ∃ op tag e g t, f.op? w.queue = some op ∧ Settlement r w.queue tag copy op e g t ∧
      e.settled? = some (w.queue, tag) := by
  cases f with
  | waiting position | held tag => exact .inl ⟨_, rfl, h⟩
  | acknowledged tag =>
    obtain ⟨e, g, t, hs, -⟩ := h
    exact .inr ⟨_, tag, e, g, t, rfl, hs, Entry.settled?_of_ack hs.asked hs.done⟩
  | deadLettered tag =>
    obtain ⟨e, g, t, hs, -⟩ := h
    exact .inr ⟨_, tag, e, g, t, rfl, hs, Entry.settled?_of_reject hs.asked hs.done⟩

end Fate

theorem Ledger.existsUnique_fate (hl : Ledger r) (hn : w.queue ∈ r.reserved)
    (hroute : ∀ e ∈ r.history.entries, ∀ d, e.op.delivery? = some d →
      e.before.DeadRoute w.queue w.target w.dlq)
    (hm : m ∈ r.history.arrived w.queue) : ∃! f : Fate, f.Holds r w m.copy := by
  -- in the queue its place is its fate; else it is what let it go, and nothing lets it go twice
  rcases hl.books.whereabouts hm with ⟨⟨p, hp, hqueue, honly⟩, hhere⟩ | ⟨hnowhere, hgone⟩
  · have hfate : ∃ f : Fate, f.Holds r w m.copy ∧ f.place? w.queue = some p := by
      rw [← hqueue]
      cases p with
      | ready queue position =>
        obtain rfl : queue = w.queue := hqueue
        exact ⟨.waiting position, hp, rfl⟩
      | held queue tag =>
        obtain rfl : queue = w.queue := hqueue
        exact ⟨.held tag, hp, rfl⟩
    obtain ⟨f, hf, hplace⟩ := hfate
    refine ⟨f, hf, fun f' hf' => ?_⟩
    rcases hf'.cases with ⟨p', hplace', hp'⟩ | ⟨op, tag, e, g, t, -, hs, hsettled⟩
    · rw [honly p' hp'] at hplace'
      exact Fate.eq_of_place? hplace' hplace
    · exact absurd (hs.gone hsettled) hhere
  · obtain ⟨f, hf⟩ := hl.fate_of_gone hn hroute hm hgone
    refine ⟨f, hf, fun f' hf' => ?_⟩
    rcases hf.cases with ⟨p, -, hp⟩ | ⟨op, tag, e, g, t, hop, hs, hsettled⟩
    · exact absurd hp (hnowhere p)
    rcases hf'.cases with ⟨p, -, hp⟩ | ⟨op', tag', e', g', t', hop', hs', hsettled'⟩
    · exact absurd hp (hnowhere p)
    · rw [hl.settlement_unique hs' hsettled' hs hsettled] at hop'
      exact Fate.eq_of_op? hop' hop

end Fates

/-- A broker that has the topology of these names, and what happened since. Only stations take
deliveries from the work queues. -/
def onTopology (names : TopologyNames) (moves : List Move) : Relay :=
  ({ reserved := names.workQueues.map WorkQueue.queue } : Relay).run
    (.client (.declare names.topology) :: moves)

theorem reserved_run (r : Relay) (moves : List Move) : (r.run moves).reserved = r.reserved :=
  run_induction (P := fun r' => r'.reserved = r.reserved)
    (fun _ _ h hturn => hturn.reserved.trans h) rfl moves

theorem since_onTopology (names : TopologyNames) (moves : List Move) :
    (onTopology names moves).history.Since (({} : Broker).declare names.topology).1 := by
  refine run_induction (P := fun r => r.history.Since (({} : Broker).declare names.topology).1)
    (fun r r' hr hturn => ?_) ?_ moves
  · rcases hturn.course.history_cases with hsame | ⟨op, hnext⟩
    · exact hsame ▸ hr
    · exact hnext ▸ hr.perform op
  · refine ⟨.refl _, fun e he d hd => ?_⟩
    rw [List.mem_singleton.mp he] at hd
    cases hd

/-- Whatever happens, a message that came to a work queue is in one state, and never between two. -/
theorem existsUnique_fate_of_arrived (names : TopologyNames)
    (valid : names.topology.validate = .ok ()) (moves : List Move) (w : WorkQueue)
    (hw : w ∈ names.workQueues) (m : StoredMessage)
    (hm : m ∈ (onTopology names moves).history.arrived w.queue) :
    ∃! f : Fate, f.Holds (onTopology names moves) w m.copy := by
  have hl : Ledger (onTopology names moves) := (inOrder_run _ _).ledger
  have hsince := since_onTopology names moves
  have hreserved : w.queue ∈ (onTopology names moves).reserved := by
    rw [onTopology, reserved_run]
    exact List.mem_map_of_mem hw
  refine hl.existsUnique_fate hreserved (fun e he d hd => ?_) hm
  exact (TopologyNames.deadRoute_of_validate valid hw).mono (hsince.always e he d hd)

def unreadableRun : List Move := [
  .client (.send ⟨"order.payment.exchange", "order.payment.success", [], "m", "", false⟩),
  .hire ⟨"order.payment.success.queue", (), {}, .standard⟩ 0,
  .act 0 (.signal .look), .act 0 (.signal .slotFree), .act 0 .poll, .act 0 (.settle 0)]

theorem existsUnique_fate_unreadableRun : ∃ w ∈ ({} : TopologyNames).workQueues,
    ((onTopology {} unreadableRun).history.broker.readyMessages w.dlq).map StoredMessage.copy =
      [2] ∧
    ∃ m ∈ (onTopology {} unreadableRun).history.arrived w.queue, m.copy = 1 ∧
      ∃! f : Fate, f.Holds (onTopology {} unreadableRun) w m.copy := by
  have hcopies : ((onTopology {} unreadableRun).history.arrived "order.payment.success.queue").map
      StoredMessage.copy = [1] := by decide
  obtain ⟨m, hm, hcopy⟩ := List.mem_map.mp (hcopies ▸ List.Mem.head [] : 1 ∈ _)
  refine ⟨_, .head _, by decide, m, hm, hcopy, ?_⟩
  exact existsUnique_fate_of_arrived {} (by decide) unreadableRun _ (.head _) m hm

end Relay
end OutcomeRelay
