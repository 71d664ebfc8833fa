import OutcomeRelay.Proofs.ConsumerStreams

/-!
Epochs of queues. A consumer of a queue can go on where it could not before only if a message came
to wait in the queue or a message that it holds was taken from it. Whatever does the one or the
other gives the queue a new epoch, and so does the loss of the connection. A poll is a look for the
connection and one try to take a message.
-/

namespace OutcomeRelay

namespace Queue

structure Calm (q q' : Queue) : Prop where
  epoch : q'.epoch = q.epoch
  ready : q.ready = [] → q'.ready = []
  outstanding : ∀ k, q.outstanding k ≤ q'.outstanding k

/-- Nothing in the queue is for this consumer: no message waits, or the consumer holds as many as it
may. -/
def Blocks (q : Queue) (consumer prefetch : Nat) : Prop :=
  q.ready = [] ∨ 0 < prefetch ∧ prefetch ≤ q.outstanding consumer

def Tells (q q' : Queue) : Prop :=
  q.epoch < q'.epoch ∨ q.Calm q'

variable {q q' q'' : Queue}

theorem Calm.refl (q : Queue) : q.Calm q :=
  ⟨rfl, fun h => h, fun _ => Nat.le_refl _⟩

theorem Calm.trans (h : q.Calm q') (h' : q'.Calm q'') : q.Calm q'' where
  epoch := h'.epoch.trans h.epoch
  ready hq := h'.ready (h.ready hq)
  outstanding k := Nat.le_trans (h.outstanding k) (h'.outstanding k)

theorem Calm.blocks (h : q.Calm q') {consumer prefetch : Nat} (hq : q.Blocks consumer prefetch) :
    q'.Blocks consumer prefetch := by
  rcases hq with hnil | ⟨hlimit, hfull⟩
  · exact .inl (h.ready hnil)
  · exact .inr ⟨hlimit, Nat.le_trans hfull (h.outstanding consumer)⟩

theorem Tells.refl (q : Queue) : q.Tells q :=
  .inr (.refl q)

theorem Tells.epoch_le (h : q.Tells q') : q.epoch ≤ q'.epoch := by
  rcases h with h | h
  · exact Nat.le_of_lt h
  · exact Nat.le_of_eq h.epoch.symm

theorem Tells.trans (h : q.Tells q') (h' : q'.Tells q'') : q.Tells q'' := by
  rcases h with hnew | hcalm
  · exact .inl (Nat.lt_of_lt_of_le hnew h'.epoch_le)
  · rcases h' with hnew | hcalm'
    · exact .inl (hcalm.epoch ▸ hnew)
    · exact .inr (hcalm.trans hcalm')

theorem outstanding_append (held : List HeldMessage) (h : HeldMessage) (k : Nat) :
    (held.filter fun g => g.consumer == k).length ≤
      ((held ++ [h]).filter fun g => g.consumer == k).length := by
  rw [List.filter_append, List.length_append]
  exact Nat.le_add_right _ _

end Queue

namespace Broker

def Tells (b b' : Broker) : Prop :=
  ∀ n q, b.queue? n = some q → ∃ q', b'.queue? n = some q' ∧ q.Tells q'

variable {b b' b'' : Broker}

theorem Tells.of_queue? (h : ∀ n q, b.queue? n = some q → b'.queue? n = some q) : Tells b b' :=
  fun n q hq => ⟨q, h n q hq, .refl q⟩

theorem Tells.refl (b : Broker) : Tells b b :=
  .of_queue? fun _ _ hq => hq

theorem Tells.trans (h : Tells b b') (h' : Tells b' b'') : Tells b b'' := by
  intro n q hq
  obtain ⟨q', hq', htells⟩ := h n q hq
  obtain ⟨q'', hq'', htells'⟩ := h' n q' hq'
  exact ⟨q'', hq'', htells.trans htells'⟩

theorem tells_modifyQueue {m : String} {f : Queue → Queue} (hf : ∀ q, (f q).spec = q.spec)
    (h : ∀ q, b.queue? m = some q → q.Tells (f q)) : Tells b (b.modifyQueue m f) := by
  intro n q hq
  rw [queue?_modifyQueue b m hf, hq]
  split
  · next hn =>
    subst hn
    exact ⟨f q, rfl, h q hq⟩
  · exact ⟨q, rfl, .refl q⟩

theorem tells_notifying {m : String} {f : Queue → Queue} (hspec : ∀ q, (f q).spec = q.spec)
    (hepoch : ∀ q, (f q).epoch = q.epoch + 1) : Tells b (b.modifyQueue m f) :=
  tells_modifyQueue hspec fun q _ => .inl (by rw [hepoch]; exact Nat.lt_succ_self _)

theorem tells_enqueueAll (b : Broker) (m : StoredMessage) (queues : List String) :
    Tells b (b.enqueueAll m queues) := by
  induction queues generalizing b with
  | nil => exact .refl b
  | cons queue queues ih =>
    have hone : Tells b (b.enqueue m queue) :=
      tells_notifying (b := { b with lastCopy := b.lastCopy + 1 }) (fun _ => rfl) fun _ => rfl
    exact hone.trans (ih _)

theorem tells_route (b : Broker) (m : StoredMessage) : Tells b (b.route m).1 := by
  unfold route
  split
  · exact .refl b
  · exact b.tells_enqueueAll m _

theorem tells_send (b : Broker) (o : Outbound) : Tells b (b.send o).1 := by
  have hroute := tells_route { b with sendAttempts := b.sendAttempts + 1 } (fresh o)
  unfold send whenReachable
  dsimp only
  split
  · split
    all_goals
      next heq =>
      rw [heq] at hroute
      exact hroute
  · exact .refl b

theorem tells_consume (b : Broker) (queue : String) (prefetch : Nat) :
    Tells b (b.consume queue prefetch).1 := by
  unfold consume whenReachable
  repeat' split
  all_goals exact .refl b

theorem tells_release (b : Broker) (queue : String) (tag : Nat) :
    Tells b (b.release queue tag).1 := by
  unfold release
  split
  · exact .refl b
  split
  · exact .refl b
  · exact tells_notifying (fun _ => rfl) fun _ => rfl

theorem tells_ack (b : Broker) (queue : String) (tag : Nat) : Tells b (b.ack queue tag).1 := by
  have hrelease := b.tells_release queue tag
  unfold ack
  split
  all_goals
    next heq =>
    rw [heq] at hrelease
    exact hrelease

theorem tells_deadLetter (b : Broker) (queue : String) (m : StoredMessage) :
    Tells b (b.deadLetter queue m).1 := by
  unfold deadLetter
  split
  · exact .refl b
  · next t ht =>
    have hroute := b.tells_route (deadAt m t)
    dsimp only
    split
    all_goals
      next heq =>
      change b.route (deadAt m t) = _ at heq
      rw [heq] at hroute
      exact hroute

theorem tells_reject (b : Broker) (queue : String) (tag : Nat) (back : Bool) :
    Tells b (b.reject queue tag back).1 := by
  have hrelease := b.tells_release queue tag
  unfold reject
  split
  · next heq =>
    rw [heq] at hrelease
    exact hrelease
  · next b' m heq =>
    rw [heq] at hrelease
    split
    · exact hrelease.trans (tells_notifying (fun _ => rfl) fun _ => rfl)
    · exact hrelease.trans (b'.tells_deadLetter queue m)

theorem tells_close (b : Broker) (c : Consumer) : Tells b (b.close c).1 := by
  unfold close
  dsimp only
  split
  · exact .refl b
  split
  · exact .refl b
  · exact tells_notifying (fun _ => rfl) fun _ => rfl

theorem tells_declareEntity (b : Broker) (e : Topology.Entity) :
    Tells b (b.declareEntity e).1 := by
  cases e with
  | exchange spec =>
    unfold declareEntity declareExchange whenReachable
    dsimp only
    repeat' split
    all_goals exact .refl b
  | queue spec =>
    unfold declareEntity declareQueue whenReachable
    dsimp only
    split
    · split
      · refine .of_queue? fun n q hq => ?_
        unfold queue? at hq ⊢
        rw [List.find?_append, hq, Option.some_or]
      · repeat' split
        all_goals exact .refl b
    · exact .refl b
  | binding r =>
    unfold declareEntity Broker.bind whenReachable
    dsimp only
    repeat' split
    all_goals exact .refl b

def notifyAll (b : Broker) : Broker :=
  { b with queues := b.queues.map Queue.notify }

theorem setReachable_false (b : Broker) :
    b.setReachable false = notifyAll { b with reachable := false } :=
  rfl

theorem queue?_notifyAll (b : Broker) (n : String) :
    b.notifyAll.queue? n = (b.queue? n).map Queue.notify :=
  List.find?_map

theorem queue?_lost {n : String} {q : Queue} (hq : b.queue? n = some q) :
    (b.setReachable false).queue? n = some q.notify := by
  have hsame : ({ b with reachable := false } : Broker).queue? n = b.queue? n := rfl
  rw [setReachable_false, queue?_notifyAll, hsame, hq, Option.map_some]

/-- The try of a consumer to take a message. Every try uses up a tag. -/
def tryTake (b : Broker) (c : Consumer) : Broker × Option Delivery :=
  let tag := b.lastTag + 1
  let b := { b with lastTag := tag }
  match b.queue? c.queue with
  | none => (b, none)
  | some q =>
    if 0 < c.prefetch ∧ c.prefetch ≤ q.outstanding c.id then (b, none)
    else
      match q.ready with
      | [] => (b, none)
      | m :: rest =>
        (b.modifyQueue c.queue fun q =>
          { q with ready := rest, held := q.held ++ [⟨tag, c.id, m⟩] },
          some (delivery c.queue tag m))

def epoch (b : Broker) (queue : String) : Nat :=
  ((b.queue? queue).map Queue.epoch).getD 0

variable {c : Consumer}

theorem poll_eq_tryTake (h : c.cancelled = false) (hr : b.reachable = true) :
    b.poll c = ((b.tryTake c).1, c,
      (b.tryTake c).2.elim (.pending (b.epoch c.queue)) .delivered) := by
  unfold poll tryTake epoch
  rw [if_neg (by simp [h]), if_neg (by simp [hr])]
  dsimp only
  have hqueue : ({ b with lastTag := b.lastTag + 1 } : Broker).queue? c.queue =
      b.queue? c.queue := rfl
  rw [hqueue]
  cases b.queue? c.queue with
  | none => rfl
  | some q =>
    dsimp only
    split
    · rfl
    · cases q.ready <;> rfl

theorem tells_tryTake (b : Broker) (c : Consumer) : Tells b (b.tryTake c).1 := by
  unfold tryTake
  dsimp only
  split
  · exact .refl b
  · next q hq =>
    split
    · exact .refl b
    split
    · exact .refl b
    · next m rest hready =>
      refine tells_modifyQueue (b := { b with lastTag := b.lastTag + 1 }) (fun _ => rfl) ?_
      intro q' hq'
      obtain rfl := Option.some.inj (hq.symm.trans hq')
      refine .inr ⟨rfl, fun hnil => ?_, Queue.outstanding_append q.held _⟩
      rw [hready] at hnil
      cases hnil

theorem tells_poll (b : Broker) (c : Consumer) : Tells b (b.poll c).1 := by
  cases hover : c.cancelled with
  | true =>
    rw [poll_of_over hover]
    exact .refl b
  | false =>
    cases hr : b.reachable with
    | false =>
      rw [poll_of_lost hover hr]
      exact .refl b
    | true =>
      rw [poll_eq_tryTake hover hr]
      exact b.tells_tryTake c

theorem reachable_tryTake (b : Broker) (c : Consumer) :
    (b.tryTake c).1.reachable = b.reachable := by
  unfold tryTake
  dsimp only
  repeat' split
  all_goals rfl

theorem poll_prefetch (b : Broker) (c : Consumer) : (b.poll c).2.1.prefetch = c.prefetch := by
  unfold poll
  dsimp only
  repeat' split
  all_goals rfl

theorem close_prefetch (b : Broker) (c : Consumer) : (b.close c).2.1.prefetch = c.prefetch := by
  unfold close
  dsimp only
  repeat' split
  all_goals rfl

theorem tryTake_cases {q : Queue} (hq : b.queue? c.queue = some q) :
    (q.Blocks c.id c.prefetch ∧ b.tryTake c = ({ b with lastTag := b.lastTag + 1 }, none)) ∨
    (¬ q.Blocks c.id c.prefetch ∧ ∃ m rest, q.ready = m :: rest ∧
      (b.tryTake c).2 = some (delivery c.queue (b.lastTag + 1) m) ∧
      Changed c.queue rest (q.held ++ [⟨b.lastTag + 1, c.id, m⟩])
        { b with lastTag := b.lastTag + 1 } (b.tryTake c).1) := by
  have hqueue : ({ b with lastTag := b.lastTag + 1 } : Broker).queue? c.queue = some q := hq
  unfold tryTake
  simp only [hqueue]
  by_cases hfull : 0 < c.prefetch ∧ c.prefetch ≤ q.outstanding c.id
  · rw [if_pos hfull]
    exact .inl ⟨.inr hfull, rfl⟩
  · rw [if_neg hfull]
    cases hready : q.ready with
    | nil => exact .inl ⟨.inl hready, rfl⟩
    | cons m rest =>
      refine .inr ⟨?_, m, rest, rfl, rfl, changed_modifyQueue hqueue rfl rfl fun _ => rfl⟩
      rintro (hnil | hlimit)
      · rw [hready] at hnil
        cases hnil
      · exact hfull hlimit

end Broker

namespace Bus

open Broker

theorem tells_perform (s : Bus) (op : Op) : Tells s.broker (s.perform op).1.broker := by
  cases op with
  | declare t =>
    exact declare_induction (P := Tells s.broker)
      (fun b e h => h.trans (b.tells_declareEntity e)) (.refl _) t
  | declareEntity e => exact s.broker.tells_declareEntity e
  | send o => exact s.broker.tells_send o
  | consume queue prefetch =>
    have hconsume := s.broker.tells_consume queue prefetch
    unfold perform
    dsimp only
    split
    all_goals
      next heq =>
      rw [heq] at hconsume
      exact hconsume
  | poll id =>
    unfold perform
    dsimp only
    split
    · exact .refl _
    · exact s.broker.tells_poll _
  | cancel id =>
    unfold perform
    dsimp only
    split <;> exact .refl _
  | close id =>
    unfold perform
    dsimp only
    split
    · exact .refl _
    · exact s.broker.tells_close _
  | ack queue tag => exact s.broker.tells_ack queue tag
  | reject queue tag back => exact s.broker.tells_reject queue tag back
  | setReachable v =>
    cases v with
    | true => exact .refl _
    | false =>
      intro n q hq
      exact ⟨q.notify, queue?_lost hq, .inl (Nat.lt_succ_self _)⟩

end Bus
end OutcomeRelay
