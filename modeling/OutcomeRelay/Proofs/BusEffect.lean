import OutcomeRelay.Proofs.Bus

/-!
What one operation can do to the messages of a broker. Most do nothing; the others put messages into
queues, move one from the waiting to the held, take a held one away, or bring held ones back.
-/

namespace OutcomeRelay

namespace Broker

variable {b b' b'' : Broker} {n : String}

structure Quiet (b b' : Broker) : Prop where
  graph : Extends b b'
  messages : SameMessages b b'
  lastTag : b.lastTag ≤ b'.lastTag
  lastConsumer : b.lastConsumer ≤ b'.lastConsumer
  lastCopy : b'.lastCopy = b.lastCopy

theorem Quiet.refl (b : Broker) : Quiet b b :=
  ⟨.refl b, .refl b, Nat.le_refl _, Nat.le_refl _, rfl⟩

theorem Quiet.of_graph (h : SameGraph b b') (hqueues : ∀ n, b'.queue? n = b.queue? n)
    (htag : b.lastTag ≤ b'.lastTag) (hconsumer : b.lastConsumer ≤ b'.lastConsumer)
    (hcopy : b'.lastCopy = b.lastCopy) : Quiet b b' :=
  ⟨h.extends, .of_queues hqueues, htag, hconsumer, hcopy⟩

theorem Quiet.trans (h : Quiet b b') (h' : Quiet b' b'') : Quiet b b'' where
  graph := h.graph.trans h'.graph
  messages := ⟨fun n => (h'.messages.ready n).trans (h.messages.ready n),
    fun n => (h'.messages.held n).trans (h.messages.held n)⟩
  lastTag := Nat.le_trans h.lastTag h'.lastTag
  lastConsumer := Nat.le_trans h.lastConsumer h'.lastConsumer
  lastCopy := h'.lastCopy.trans h.lastCopy

structure Changed (queue : String) (ready : List StoredMessage) (held : List HeldMessage)
    (b b' : Broker) : Prop where
  graph : SameGraph b b'
  ready : ∀ n, b'.readyMessages n = if n = queue then ready else b.readyMessages n
  held : ∀ n, b'.heldMessages n = if n = queue then held else b.heldMessages n
  lastTag : b'.lastTag = b.lastTag
  lastConsumer : b'.lastConsumer = b.lastConsumer
  lastCopy : b'.lastCopy = b.lastCopy

theorem Changed.refl (b : Broker) (n : String) :
    Changed n (b.readyMessages n) (b.heldMessages n) b b :=
  ⟨.refl b, fun m => by split <;> simp_all, fun m => by split <;> simp_all, rfl, rfl, rfl⟩

theorem changed_modifyQueue {q : Queue} {f : Queue → Queue} {ready : List StoredMessage}
    {held : List HeldMessage} (h : b.queue? n = some q) (hready : (f q).ready = ready)
    (hheld : (f q).held = held) (hf : ∀ q, (f q).spec = q.spec) :
    Changed n ready held b (b.modifyQueue n f) := by
  subst hready hheld
  exact ⟨.modifyQueue b n hf, readyMessages_modifyQueue h hf, heldMessages_modifyQueue h hf,
    rfl, rfl, rfl⟩

theorem Changed.trans {ready ready' : List StoredMessage} {held held' : List HeldMessage}
    (h : Changed n ready held b b') (h' : Changed n ready' held' b' b'') :
    Changed n ready' held' b b'' where
  graph := h.graph.trans h'.graph
  ready m := by
    rw [h'.ready, h.ready]
    split <;> rfl
  held m := by
    rw [h'.held, h.held]
    split <;> rfl
  lastTag := h'.lastTag.trans h.lastTag
  lastConsumer := h'.lastConsumer.trans h.lastConsumer
  lastCopy := h'.lastCopy.trans h.lastCopy

def comeBack (h : HeldMessage) : StoredMessage :=
  { h.message with redelivered := true }

def deadAt (m : StoredMessage) (t : DeadLetterTarget) : StoredMessage :=
  { m with
    deathCount := m.deathCount + 1
    redelivered := false
    exchange := t.exchange
    routingKey := t.routingKey }

def deadLetterTarget? (b : Broker) (queue : String) : Option DeadLetterTarget :=
  (b.spec? queue).bind QueueSpec.deadLetter

theorem deadLetterTarget?_eq (b : Broker) (queue : String) :
    (b.queue? queue).bind (fun q => q.spec.deadLetter) = b.deadLetterTarget? queue := by
  unfold deadLetterTarget? spec?
  cases b.queue? queue <;> rfl

def deadTargets (b : Broker) : Option DeadLetterTarget → List String
  | none => []
  | some t => b.knownTargets t.exchange t.routingKey

theorem poll_cases (b : Broker) (c : Consumer) :
    (Quiet b (b.poll c).1 ∧ ∀ d, (b.poll c).2.2 ≠ .delivered d) ∨
    ∃ m rest, b.readyMessages c.queue = m :: rest ∧ (b.poll c).2.1 = c ∧
      (b.poll c).2.2 = .delivered (delivery c.queue (b.lastTag + 1) m) ∧
      Changed c.queue rest (b.heldMessages c.queue ++ [⟨b.lastTag + 1, c.id, m⟩])
        { b with lastTag := b.lastTag + 1 } (b.poll c).1 := by
  have hquiet : Quiet b { b with lastTag := b.lastTag + 1 } :=
    .of_graph ⟨rfl, rfl, fun _ => rfl⟩ (fun _ => rfl) (Nat.le_succ _) (Nat.le_refl _) rfl
  unfold poll
  split
  · exact .inl ⟨.refl b, nofun⟩
  split
  · exact .inl ⟨.refl b, nofun⟩
  dsimp only
  split
  · exact .inl ⟨hquiet, nofun⟩
  · next q hq =>
    split
    · exact .inl ⟨hquiet, nofun⟩
    split
    · exact .inl ⟨hquiet, nofun⟩
    · next m rest hready =>
      refine .inr ⟨m, rest, (readyMessages_of_some hq).trans hready, rfl, rfl, ?_⟩
      have hheld : b.heldMessages c.queue = q.held := heldMessages_of_some hq
      rw [hheld]
      exact changed_modifyQueue hq rfl rfl fun _ => rfl

theorem release_cases (b : Broker) (queue : String) (tag : Nat) :
    (∃ e, b.release queue tag = (b, .error e) ∧ ∀ h ∈ b.heldMessages queue, h.tag ≠ tag) ∨
    ∃ h ∈ b.heldMessages queue, h.tag = tag ∧ (b.release queue tag).2 = .ok h.message ∧
      Changed queue (b.readyMessages queue)
        ((b.heldMessages queue).filter fun h => h.tag != tag) b (b.release queue tag).1 := by
  unfold release
  split
  · next hq =>
    refine .inl ⟨_, rfl, ?_⟩
    simp [heldMessages, hq]
  · next q hq =>
    rw [heldMessages_of_some hq, readyMessages_of_some hq]
    split
    · next hfind =>
      refine .inl ⟨_, rfl, fun h hh htag => ?_⟩
      exact absurd htag (by simpa using List.find?_eq_none.mp hfind h hh)
    · next h hfind =>
      have htag : h.tag = tag := by simpa using List.find?_some hfind
      refine .inr ⟨h, List.mem_of_find?_eq_some hfind, htag, rfl, ?_⟩
      exact changed_modifyQueue hq rfl rfl fun _ => rfl

theorem changed_requeue {q : Queue} (hq : b.queue? n = some q) (h : HeldMessage) :
    Changed n (comeBack h :: q.ready) q.held b (b.requeue n h.message) :=
  changed_modifyQueue hq rfl rfl fun _ => rfl

theorem close_changed (b : Broker) (c : Consumer) :
    Changed c.queue
      (((b.heldMessages c.queue).filter fun h => h.consumer == c.id).map comeBack ++
        b.readyMessages c.queue)
      ((b.heldMessages c.queue).filter fun h => h.consumer != c.id) b (b.close c).1 := by
  unfold close
  dsimp only
  split
  · next hq =>
    have hchanged := Changed.refl b c.queue
    simp only [heldMessages, readyMessages, hq, Option.map_none, Option.getD_none, List.filter_nil,
      List.map_nil, List.append_nil] at hchanged ⊢
    exact hchanged
  · next q hq =>
    rw [heldMessages_of_some hq, readyMessages_of_some hq]
    split
    · next hmine =>
      have hnil := List.isEmpty_iff.mp hmine
      have hall : (q.held.filter fun h => h.consumer != c.id) = q.held := by
        refine List.filter_eq_self.mpr fun h hh => ?_
        simpa using List.filter_eq_nil_iff.mp hnil h hh
      rw [hnil, hall]
      have hchanged := Changed.refl b c.queue
      rwa [heldMessages_of_some hq, readyMessages_of_some hq] at hchanged
    · exact changed_modifyQueue hq rfl rfl fun _ => rfl

theorem posted_deadLetter (b : Broker) (queue : String) (m : StoredMessage) :
    ∃ new, Posted ((b.deadLetterTarget? queue).elim m (deadAt m))
      (b.deadTargets (b.deadLetterTarget? queue)) b (b.deadLetter queue m).1 new := by
  unfold deadLetter
  rw [deadLetterTarget?_eq]
  cases ht : b.deadLetterTarget? queue with
  | none => exact ⟨_, .none m b⟩
  | some t =>
    obtain ⟨new, hnew⟩ := posted_route b (deadAt m t)
    refine ⟨new, ?_⟩
    simp only [Option.elim_some]
    split
    all_goals
      next hroute =>
      change b.route (deadAt m t) = _ at hroute
      rw [hroute] at hnew
      exact hnew

theorem send_cases (b : Broker) (o : Outbound) :
    (∃ e, (b.send o).2 = .error e ∧ (b.send o).1 = { b with sendAttempts := b.sendAttempts + 1 }) ∨
    (∃ c new, (b.send o).2 = .ok c ∧
      Posted (fresh o) (b.knownTargets o.exchange o.routingKey) b (b.send o).1 new) := by
  unfold send whenReachable
  dsimp only
  split
  · right
    obtain ⟨new, hnew⟩ := posted_route { b with sendAttempts := b.sendAttempts + 1 } (fresh o)
    have hposted : Posted (fresh o) (b.knownTargets o.exchange o.routingKey) b
        (route { b with sendAttempts := b.sendAttempts + 1 } (fresh o)).1 new :=
      ⟨⟨hnew.graph.exchanges, hnew.graph.bindings, hnew.graph.specs⟩, hnew.ready, hnew.held,
        hnew.lastTag, hnew.lastConsumer, hnew.lastCopy, hnew.alike, hnew.fresh, hnew.ascending,
        hnew.apart, hnew.count⟩
    split
    all_goals
      next hroute =>
      rw [hroute] at hposted
      exact ⟨_, new, rfl, hposted⟩
  · exact .inl ⟨_, rfl, rfl⟩

theorem SameGraph.isSome_queue? (h : SameGraph b b') (n : String) :
    (b'.queue? n).isSome = (b.queue? n).isSome := by
  rw [← isSome_spec?, h.specs, isSome_spec?]

theorem SameGraph.knownTargets (h : SameGraph b b') (exchange routingKey : String) :
    b'.knownTargets exchange routingKey = b.knownTargets exchange routingKey := by
  simp only [Broker.knownTargets, targets, exchange?, h.exchanges, h.bindings, h.isSome_queue?]

theorem SameGraph.deadTargets (h : SameGraph b b') (t : Option DeadLetterTarget) :
    b'.deadTargets t = b.deadTargets t := by
  cases t with
  | none => rfl
  | some t => exact h.knownTargets _ _

theorem SameGraph.deadLetterTarget? (h : SameGraph b b') (n : String) :
    b'.deadLetterTarget? n = b.deadLetterTarget? n := by
  rw [Broker.deadLetterTarget?, h.specs, Broker.deadLetterTarget?]

theorem isSome_queue?_of_held {h : HeldMessage} (hh : h ∈ b.heldMessages n) :
    (b.queue? n).isSome := by
  cases hq : b.queue? n with
  | some q => rfl
  | none => simp [heldMessages, hq] at hh

theorem changed_release_requeue {h : HeldMessage} {held : List HeldMessage}
    (hb : Changed n (b.readyMessages n) held b b') (hh : h ∈ b.heldMessages n) :
    Changed n (comeBack h :: b.readyMessages n) held b (b'.requeue n h.message) := by
  -- the queue is declared still, since one that is not has nothing that is held
  have hsome := (hb.graph.isSome_queue? n).trans (isSome_queue?_of_held hh)
  obtain ⟨q, hq⟩ := Option.isSome_iff_exists.mp hsome
  have hback := changed_requeue hq h
  have hready := hb.ready n
  have hheld := hb.held n
  rw [if_pos rfl] at hready hheld
  rw [← readyMessages_of_some hq, ← heldMessages_of_some hq, hready, hheld] at hback
  exact hb.trans hback

end Broker

namespace Bus

open Broker

def Op.IsSilent : Op → Reply → Prop
  | .send _, .confirmed _ | .poll _, .polled (.delivered _) | .ack .., .done | .reject .., .done
  | .close _, .done => False
  | _, _ => True

inductive Effect (s : Bus) : Op → Reply → Broker → Prop where
  | quiet {op : Op} {reply : Reply} {b : Broker} (silent : op.IsSilent reply)
      (same : Quiet s.broker b) : Effect s op reply b
  | posted {o : Outbound} {c : Confirm} {b : Broker} {new : String → List StoredMessage}
      (put : Posted (fresh o) (s.broker.knownTargets o.exchange o.routingKey) s.broker b new) :
      Effect s (.send o) (.confirmed c) b
  | taken {id : Nat} {c : Consumer} {m : StoredMessage} {rest : List StoredMessage} {b : Broker}
      (found : s.consumer? id = some c) (ready : s.broker.readyMessages c.queue = m :: rest)
      (change : Changed c.queue rest
        (s.broker.heldMessages c.queue ++ [⟨s.broker.lastTag + 1, c.id, m⟩])
        { s.broker with lastTag := s.broker.lastTag + 1 } b) :
      Effect s (.poll id) (.polled (.delivered (delivery c.queue (s.broker.lastTag + 1) m))) b
  | acked {queue : String} {h : HeldMessage} {b : Broker} (holds : h ∈ s.broker.heldMessages queue)
      (change : Changed queue (s.broker.readyMessages queue)
        ((s.broker.heldMessages queue).filter fun g => g.tag != h.tag) s.broker b) :
      Effect s (.ack queue h.tag) .done b
  | requeued {queue : String} {h : HeldMessage} {b : Broker}
      (holds : h ∈ s.broker.heldMessages queue)
      (change : Changed queue (comeBack h :: s.broker.readyMessages queue)
        ((s.broker.heldMessages queue).filter fun g => g.tag != h.tag) s.broker b) :
      Effect s (.reject queue h.tag true) .done b
  | died {queue : String} {h : HeldMessage} {b b' : Broker} {new : String → List StoredMessage}
      (holds : h ∈ s.broker.heldMessages queue)
      (change : Changed queue (s.broker.readyMessages queue)
        ((s.broker.heldMessages queue).filter fun g => g.tag != h.tag) s.broker b)
      (put : Posted ((s.broker.deadLetterTarget? queue).elim h.message (deadAt h.message))
        (s.broker.deadTargets (s.broker.deadLetterTarget? queue)) b b' new) :
      Effect s (.reject queue h.tag false) .done b'
  | closed {id : Nat} {c : Consumer} {b : Broker} (found : s.consumer? id = some c)
      (change : Changed c.queue
        (((s.broker.heldMessages c.queue).filter fun h => h.consumer == c.id).map comeBack ++
          s.broker.readyMessages c.queue)
        ((s.broker.heldMessages c.queue).filter fun h => h.consumer != c.id) s.broker b) :
      Effect s (.close id) .done b

theorem quiet_declareExchange (b : Broker) (spec : ExchangeSpec) :
    Quiet b (b.declareExchange spec).1 := by
  unfold declareExchange whenReachable
  split
  · split
    · refine ⟨⟨fun n e he => ?_, fun _ _ h => h, fun _ h => h, fun h => h⟩, .of_queues fun _ => rfl,
        Nat.le_refl _, Nat.le_refl _, rfl⟩
      unfold exchange? at he ⊢
      rw [List.find?_append, he, Option.some_or]
    · repeat' split
      all_goals exact .refl b
  · exact .refl b

theorem quiet_bind (b : Broker) (r : Binding) : Quiet b (b.bind r).1 := by
  unfold Broker.bind whenReachable
  split
  · split
    · exact .refl b
    split
    · exact .refl b
    split
    · exact .refl b
    · next hnew =>
      refine ⟨⟨fun _ _ h => h, fun _ _ h => h, fun _ h => List.mem_append_left _ h, fun h => ?_⟩,
        .of_queues fun _ => rfl, Nat.le_refl _, Nat.le_refl _, rfl⟩
      exact List.nodup_append.mpr ⟨h, List.pairwise_singleton _ r, fun x hx y hy hxy =>
        hnew (List.mem_singleton.mp hy ▸ hxy ▸ hx)⟩
  · exact .refl b

theorem quiet_append_queue {b : Broker} {spec : QueueSpec} (h : b.queue? spec.name = none) :
    Quiet b { b with queues := b.queues ++ [{ spec }] } := by
  have hqueue : ∀ n,
      (n ≠ spec.name →
        ({ b with queues := b.queues ++ [{ spec }] } : Broker).queue? n = b.queue? n) ∧
      (n = spec.name →
        ({ b with queues := b.queues ++ [{ spec }] } : Broker).queue? n = some { spec }) := by
    intro n
    unfold queue? at h ⊢
    refine ⟨fun hn => ?_, fun hn => ?_⟩
    · rw [List.find?_append, List.find?_cons_of_neg (by simpa using Ne.symm hn), List.find?_nil,
        Option.or_none]
    · subst hn
      rw [List.find?_append, h, Option.none_or, List.find?_cons_of_pos (by simp)]
  refine ⟨⟨fun _ _ h => h, fun n s hs => ?_, fun _ h => h, fun h => h⟩,
    ⟨fun n => ?_, fun n => ?_⟩, Nat.le_refl _, Nat.le_refl _, rfl⟩
  · by_cases hn : n = spec.name
    · rw [hn, spec?, h] at hs
      cases hs
    · exact (spec?_congr ((hqueue n).1 hn)).trans hs
  · by_cases hn : n = spec.name
    · rw [readyMessages_of_some ((hqueue n).2 hn), hn, readyMessages, h]
      rfl
    · exact readyMessages_congr ((hqueue n).1 hn)
  · by_cases hn : n = spec.name
    · rw [heldMessages_of_some ((hqueue n).2 hn), hn, heldMessages, h]
      rfl
    · exact heldMessages_congr ((hqueue n).1 hn)

theorem quiet_declareQueue (b : Broker) (spec : QueueSpec) : Quiet b (b.declareQueue spec).1 := by
  unfold declareQueue whenReachable
  split
  · split
    · next hnone => exact quiet_append_queue hnone
    · repeat' split
      all_goals exact .refl b
  · exact .refl b

theorem quiet_declareEntity (b : Broker) (e : Topology.Entity) : Quiet b (b.declareEntity e).1 := by
  cases e with
  | exchange spec => exact quiet_declareExchange b spec
  | queue spec => exact quiet_declareQueue b spec
  | binding r => exact quiet_bind b r

theorem declare_induction {P : Broker → Prop} (one : ∀ b e, P b → P (b.declareEntity e).1)
    {b : Broker} (h : P b) (t : Topology) : P (b.declare t).1 := by
  have heach : ∀ es b, P b → P (Topology.declareEach declareEntity b es).1 := by
    intro es
    induction es with
    | nil => exact fun _ h => h
    | cons e es ih =>
      intro b h
      have hone := one b e h
      unfold Topology.declareEach
      split
      · next hfail => rwa [hfail] at hone
      · next hdone =>
        rw [hdone] at hone
        exact ih _ hone
  unfold Broker.declare Topology.declareWith
  split
  · exact h
  · exact heach _ _ h

theorem quiet_declare (b : Broker) (t : Topology) : Quiet b (b.declare t).1 :=
  declare_induction (P := Quiet b) (fun b' e h => h.trans (quiet_declareEntity b' e)) (.refl b) t

theorem quiet_setReachable (b : Broker) (v : Bool) : Quiet b (b.setReachable v) := by
  unfold setReachable
  dsimp only
  split
  · exact .of_graph ⟨rfl, rfl, fun _ => rfl⟩ (fun _ => rfl) (Nat.le_refl _) (Nat.le_refl _) rfl
  · have hqueue : ∀ n,
        ({ b with reachable := v, queues := b.queues.map Queue.notify } : Broker).queue? n =
          (b.queue? n).map Queue.notify := fun n => List.find?_map
    refine ⟨⟨fun _ _ h => h, fun n s hs => ?_, fun _ h => h, fun h => h⟩,
      ⟨fun n => ?_, fun n => ?_⟩, Nat.le_refl _, Nat.le_refl _, rfl⟩
    · rw [spec?, hqueue, Option.map_map]
      exact hs
    · rw [readyMessages, hqueue, readyMessages]
      cases b.queue? n <;> rfl
    · rw [heldMessages, hqueue, heldMessages]
      cases b.queue? n <;> rfl

theorem effect_ack (s : Bus) (queue : String) (tag : Nat) :
    Effect s (.ack queue tag) (s.perform (.ack queue tag)).2
      (s.perform (.ack queue tag)).1.broker := by
  simp only [perform, Broker.ack]
  rcases s.broker.release_cases queue tag with ⟨e, he, -⟩ | ⟨h, hh, rfl, hok, hchange⟩
  · rw [he]
    exact .quiet trivial (.refl _)
  · obtain ⟨b, hb⟩ : ∃ b, s.broker.release queue h.tag = (b, .ok h.message) := ⟨_, Prod.ext rfl hok⟩
    rw [hb] at hchange ⊢
    exact .acked hh hchange

theorem effect_reject (s : Bus) (queue : String) (tag : Nat) (back : Bool) :
    Effect s (.reject queue tag back) (s.perform (.reject queue tag back)).2
      (s.perform (.reject queue tag back)).1.broker := by
  simp only [perform, reject]
  rcases s.broker.release_cases queue tag with ⟨e, he, -⟩ | ⟨h, hh, rfl, hok, hchange⟩
  · rw [he]
    exact .quiet trivial (.refl _)
  · obtain ⟨b, hb⟩ : ∃ b, s.broker.release queue h.tag = (b, .ok h.message) := ⟨_, Prod.ext rfl hok⟩
    rw [hb] at hchange ⊢
    cases back with
    | true => exact .requeued hh (changed_release_requeue hchange hh)
    | false =>
      obtain ⟨new, hnew⟩ := posted_deadLetter b queue h.message
      -- the target is looked up after the release, which declares nothing
      rw [hchange.graph.deadTargets, hchange.graph.deadLetterTarget?] at hnew
      exact .died hh hchange hnew

theorem perform_effect (s : Bus) (op : Op) :
    Effect s op (s.perform op).2 (s.perform op).1.broker := by
  cases op with
  | declare t =>
    refine .quiet ?_ (quiet_declare s.broker t)
    cases (s.perform (.declare t)).2 <;> trivial
  | declareEntity e =>
    refine .quiet ?_ (quiet_declareEntity s.broker e)
    cases (s.perform (.declareEntity e)).2 <;> trivial
  | send o =>
    rcases s.broker.send_cases o with ⟨e, he, hb⟩ | ⟨c, new, hc, hnew⟩
    · simp only [perform, he, hb]
      exact .quiet trivial (.of_graph ⟨rfl, rfl, fun _ => rfl⟩ (fun _ => rfl) (Nat.le_refl _)
        (Nat.le_refl _) rfl)
    · simp only [perform, hc]
      exact .posted hnew
  | consume queue prefetch =>
    simp only [perform, Broker.consume, whenReachable]
    split
    all_goals
      next heq =>
      split at heq
      · split at heq <;> cases heq
        exact .quiet trivial (.of_graph ⟨rfl, rfl, fun _ => rfl⟩ (fun _ => rfl) (Nat.le_refl _)
          (by simp) rfl)
      · cases heq
        try exact .quiet trivial (.refl _)
  | poll id =>
    simp only [perform]
    split
    · exact .quiet trivial (.refl _)
    · next c hc =>
      rcases s.broker.poll_cases c with ⟨hquiet, hnone⟩ | ⟨m, rest, hready, -, hd, hchange⟩
      · refine .quiet ?_ hquiet
        cases hp : (s.broker.poll c).2.2 with
        | delivered d => exact absurd hp (hnone d)
        | _ => trivial
      · simp only [hd]
        exact .taken hc hready hchange
  | cancel id =>
    simp only [perform]
    split <;> exact .quiet trivial (.refl _)
  | close id =>
    simp only [perform]
    split
    · exact .quiet trivial (.refl _)
    · next c hc => exact .closed hc (s.broker.close_changed c)
  | ack queue tag => exact effect_ack s queue tag
  | reject queue tag back => exact effect_reject s queue tag back
  | setReachable v => exact .quiet trivial (quiet_setReachable s.broker v)

theorem Effect.graph {s : Bus} {op : Op} {reply : Reply} {b : Broker} (h : Effect s op reply b) :
    Extends s.broker b := by
  cases h with
  | quiet _ same => exact same.graph
  | posted put => exact put.graph.extends
  | taken _ _ change =>
    have hgraph : SameGraph s.broker b :=
      ⟨change.graph.exchanges, change.graph.bindings, change.graph.specs⟩
    exact hgraph.extends
  | acked _ change | requeued _ change | closed _ change => exact change.graph.extends
  | died _ change put => exact (change.graph.trans put.graph).extends

end Bus
end OutcomeRelay
