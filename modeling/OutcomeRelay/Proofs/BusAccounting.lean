import OutcomeRelay.Proofs.BusEffect

/-!
The books of a broker. Every operation keeps them: what is in a queue after it, and what left the
queue with it, is what was in the queue before and what came to it.
-/

namespace OutcomeRelay

namespace Broker

structure Tagged (b : Broker) : Prop where
  bounded : ∀ n, ∀ h ∈ b.heldMessages n, h.tag ≤ b.lastTag
  ascending : ∀ n, (b.heldMessages n).Pairwise fun g h => g.tag < h.tag

def Numbered (b : Broker) : Prop :=
  ∀ n, ∀ m ∈ b.messages n, m.copy ≤ b.lastCopy

variable {b b' : Broker} {n : String}

theorem Numbered.ready (hb : Numbered b) (n : String) :
    ∀ m ∈ b.readyMessages n, m.copy ≤ b.lastCopy :=
  fun m hm => hb n m (List.mem_append_left _ hm)

theorem mem_messages_of_ready {m : StoredMessage} (h : m ∈ b.readyMessages n) :
    m ∈ b.messages n :=
  List.mem_append_left _ h

theorem mem_messages_of_held {h : HeldMessage} (hh : h ∈ b.heldMessages n) :
    h.message ∈ b.messages n :=
  List.mem_append_right _ (List.mem_map_of_mem hh)

theorem tagged_empty : Tagged {} :=
  ⟨fun _ _ hh => absurd hh List.not_mem_nil, fun _ => List.Pairwise.nil⟩

theorem filter_tag_of_ascending {held : List HeldMessage}
    (hasc : held.Pairwise fun g h => g.tag < h.tag) {h : HeldMessage} (hh : h ∈ held) :
    held.filter (fun g => g.tag == h.tag) = [h] := by
  induction held with
  | nil => simp at hh
  | cons x xs ih =>
    obtain ⟨hx, hxs⟩ := List.pairwise_cons.mp hasc
    rcases List.mem_cons.mp hh with rfl | hmem
    · have hnone : xs.filter (fun g => g.tag == h.tag) = [] := by
        refine List.filter_eq_nil_iff.mpr fun g hg => ?_
        have := hx g hg
        simp only [beq_iff_eq]
        omega
      rw [List.filter_cons_of_pos (by simp), hnone]
    · have := hx h hmem
      rw [List.filter_cons_of_neg (by simp only [beq_iff_eq]; omega), ih hxs hmem]

namespace Tagged

theorem filter_tag (hb : Tagged b) {h : HeldMessage} (hh : h ∈ b.heldMessages n) :
    (b.heldMessages n).filter (fun g => g.tag == h.tag) = [h] :=
  filter_tag_of_ascending (hb.ascending n) hh

theorem eq_of_tag (hb : Tagged b) {g h : HeldMessage} (hg : g ∈ b.heldMessages n)
    (hh : h ∈ b.heldMessages n) (htag : g.tag = h.tag) : g = h := by
  have hmem : g ∈ (b.heldMessages n).filter (fun x => x.tag == h.tag) :=
    List.mem_filter.mpr ⟨hg, by simpa using htag⟩
  rw [hb.filter_tag hh] at hmem
  exact List.mem_singleton.mp hmem

theorem of_sublist (hb : Tagged b) (hsub : ∀ n, (b'.heldMessages n).Sublist (b.heldMessages n))
    (hlast : b.lastTag ≤ b'.lastTag) : Tagged b' where
  bounded n h hh := Nat.le_trans (hb.bounded n h ((hsub n).subset hh)) hlast
  ascending n := (hb.ascending n).sublist (hsub n)

end Tagged

theorem Changed.held_sublist {ready : List StoredMessage} {held : List HeldMessage}
    (h : Changed n ready held b b') (hsub : held.Sublist (b.heldMessages n)) (k : String) :
    (b'.heldMessages k).Sublist (b.heldMessages k) := by
  rw [h.held]
  split
  · next hk => rw [hk]; exact hsub
  · exact List.Sublist.refl _

theorem copies_eq (b : Broker) (n : String) :
    b.copies n = (b.readyMessages n).map StoredMessage.copy ++
      (b.heldMessages n).map fun h => h.message.copy := by
  simp only [copies, messages, List.map_append, List.map_map]
  rfl

theorem Changed.ready_same {held : List HeldMessage}
    (h : Changed n (b.readyMessages n) held b b') (k : String) :
    b'.readyMessages k = b.readyMessages k := by
  rw [h.ready]
  split
  · next hk => rw [hk]
  · rfl

theorem Changed.copies_perm {ready : List StoredMessage} {held : List HeldMessage}
    (h : Changed n ready held b b')
    (hperm : (ready.map StoredMessage.copy ++ held.map fun h => h.message.copy).Perm (b.copies n))
    (k : String) : (b'.copies k).Perm (b.copies k) := by
  rw [copies_eq, h.ready, h.held]
  split
  · next hk => rw [hk]; exact hperm
  · rw [copies_eq]

theorem perm_filter_tag (held : List HeldMessage) (t : Nat) :
    (held.filter (fun g => g.tag != t) ++ held.filter (fun g => g.tag == t)).Perm held := by
  have hsplit := List.filter_append_perm (fun g : HeldMessage => g.tag == t) held
  exact List.perm_append_comm.trans hsplit

end Broker

namespace Bus

open Broker

variable {s : Bus} {op : Op} {reply : Reply} {b : Broker}

theorem Effect.tagged (hs : Tagged s.broker) (h : Effect s op reply b) : Tagged b := by
  cases h with
  | quiet _ same =>
    exact hs.of_sublist (fun n => by rw [same.messages.held]) same.lastTag
  | posted put => exact hs.of_sublist (fun n => by rw [put.held]) (Nat.le_of_eq put.lastTag.symm)
  | acked holds change | requeued holds change =>
    exact hs.of_sublist (change.held_sublist List.filter_sublist) (Nat.le_of_eq change.lastTag.symm)
  | closed found change =>
    exact hs.of_sublist (change.held_sublist List.filter_sublist) (Nat.le_of_eq change.lastTag.symm)
  | died holds change put =>
    have hleft := hs.of_sublist (change.held_sublist List.filter_sublist)
      (Nat.le_of_eq change.lastTag.symm)
    exact hleft.of_sublist (fun n => by rw [put.held]) (Nat.le_of_eq put.lastTag.symm)
  | @taken id c m rest b found ready change =>
    have hlast : b.lastTag = s.broker.lastTag + 1 := change.lastTag
    have hheld : ∀ n, b.heldMessages n = if n = c.queue then
        s.broker.heldMessages c.queue ++ [⟨s.broker.lastTag + 1, c.id, m⟩]
      else s.broker.heldMessages n := change.held
    refine ⟨fun n h hh => ?_, fun n => ?_⟩
    · rw [hheld] at hh
      rw [hlast]
      split at hh
      · rcases List.mem_append.mp hh with hh | hh
        · exact Nat.le_succ_of_le (hs.bounded _ h hh)
        · obtain rfl := List.mem_singleton.mp hh
          exact Nat.le_refl _
      · exact Nat.le_succ_of_le (hs.bounded _ h hh)
    · rw [hheld]
      split
      · refine List.pairwise_append.mpr ⟨hs.ascending _, List.pairwise_singleton _ _, ?_⟩
        intro g hg h hh
        rw [List.mem_singleton.mp hh]
        exact Nat.lt_succ_of_le (hs.bounded _ g hg)
      · exact hs.ascending n

theorem Entry.arrivals_eq {e : Entry} {n : String} {old new : List StoredMessage}
    (hready : e.after.readyMessages n = old ++ new) (hold : ∀ m ∈ old, m.copy ≤ e.before.lastCopy)
    (hnew : ∀ m ∈ new, e.before.lastCopy < m.copy) : e.arrivals n = new := by
  have hnone : old.filter (fun m => e.before.lastCopy < m.copy) = [] := by
    refine List.filter_eq_nil_iff.mpr fun m hm => ?_
    have := hold m hm
    simp only [decide_eq_true_eq]
    omega
  have hall : new.filter (fun m => e.before.lastCopy < m.copy) = new :=
    List.filter_eq_self.mpr fun m hm => by simpa using hnew m hm
  rw [Entry.arrivals, hready, List.filter_append, hnone, hall, List.nil_append]

theorem Entry.arrivals_eq_nil {e : Entry} {n : String}
    (hold : ∀ m ∈ e.after.readyMessages n, m.copy ≤ e.before.lastCopy) : e.arrivals n = [] :=
  Entry.arrivals_eq (List.append_nil _).symm hold (by simp)

theorem Entry.settled?_of_silent {e : Entry} (h : e.op.IsSilent e.reply) : e.settled? = none := by
  unfold Entry.settled?
  split
  · next hop hreply =>
    rw [hop, hreply] at h
    exact h.elim
  · next hop hreply =>
    rw [hop, hreply] at h
    exact h.elim
  · rfl

theorem Entry.departures_of_none {e : Entry} (h : e.settled? = none) (n : String) :
    e.departures n = [] := by
  rw [Entry.departures, h]

theorem Entry.departures_of_some {e : Entry} {queue : String} {tag : Nat}
    (h : e.settled? = some (queue, tag)) (n : String) :
    e.departures n =
      if queue = n then (e.before.heldMessages n).filter (fun h => h.tag == tag) else [] := by
  rw [Entry.departures, h]

def Entry.Balances (e : Entry) (n : String) : Prop :=
  (e.after.copies n ++ (e.departures n).map fun h => h.message.copy).Perm
    (e.before.copies n ++ (e.arrivals n).map StoredMessage.copy)

namespace Entry

variable {e : Entry} {n : String}

theorem balances_of_perm (hnumbered : Numbered e.before) (hgone : e.departures n = [])
    (hperm : (e.after.copies n).Perm (e.before.copies n)) : e.Balances n := by
  have hnone : e.arrivals n = [] := by
    refine Entry.arrivals_eq_nil fun m hm => ?_
    have hcopy : m.copy ∈ e.before.copies n :=
      hperm.subset (List.mem_map_of_mem (mem_messages_of_ready hm))
    obtain ⟨x, hx, hxm⟩ := List.mem_map.mp hcopy
    rw [← hxm]
    exact hnumbered n x hx
  rw [Balances, hgone, hnone, List.map_nil, List.map_nil, List.append_nil, List.append_nil]
  exact hperm

theorem balances_of_appended (new : List StoredMessage) (hnumbered : Numbered e.before)
    (hready : e.after.readyMessages n = e.before.readyMessages n ++ new)
    (hnew : ∀ m ∈ new, e.before.lastCopy < m.copy)
    (hheld : (e.after.heldMessages n ++ e.departures n).Perm (e.before.heldMessages n)) :
    e.Balances n := by
  have harrived : e.arrivals n = new := Entry.arrivals_eq hready
    (fun m hm => hnumbered n m (mem_messages_of_ready hm)) hnew
  have hcopies := hheld.map fun h : HeldMessage => h.message.copy
  rw [Balances, harrived, copies_eq, copies_eq, hready]
  rw [List.perm_iff_count] at hcopies ⊢
  intro c
  have := hcopies c
  simp only [List.map_append, List.count_append] at this ⊢
  omega

theorem held_perm_of_settled {queue : String} {tag : Nat}
    (hsettled : e.settled? = some (queue, tag))
    (hheld : e.after.heldMessages n = if n = queue then
        (e.before.heldMessages queue).filter (fun g => g.tag != tag)
      else e.before.heldMessages n) :
    (e.after.heldMessages n ++ e.departures n).Perm (e.before.heldMessages n) := by
  rw [hheld, departures_of_some hsettled]
  by_cases hn : n = queue
  · subst hn
    rw [if_pos rfl, if_pos rfl]
    exact perm_filter_tag _ _
  · rw [if_neg hn, if_neg (Ne.symm hn), List.append_nil]

end Entry

theorem Effect.balances (htagged : Tagged s.broker) (hnumbered : Numbered s.broker)
    (h : Effect s op reply b) (n : String) : (⟨s.broker, op, reply, b⟩ : Entry).Balances n := by
  cases h with
  | quiet silent same =>
    have hgone := Entry.departures_of_none (e := ⟨s.broker, op, reply, b⟩)
      (Entry.settled?_of_silent silent) n
    refine Entry.balances_of_perm hnumbered hgone ?_
    rw [copies_eq, copies_eq, same.messages.ready, same.messages.held]
  | @posted o c b new put =>
    refine Entry.balances_of_appended (new n) hnumbered (put.ready n)
      (fun m hm => (put.fresh n m hm).1) ?_
    rw [put.held]
    exact .of_eq (List.append_nil _)
  | @taken id c m rest b found ready change =>
    refine Entry.balances_of_perm hnumbered rfl (change.copies_perm ?_ n)
    -- the first that waited is now the last that is held
    show List.Perm _ (s.broker.copies c.queue)
    rw [copies_eq, ready]
    refine List.perm_iff_count.mpr fun x => ?_
    simp only [List.map_append, List.map_cons, List.map_nil, List.count_append, List.count_cons,
      List.count_nil]
    omega
  | @acked queue h b holds change =>
    refine Entry.balances_of_appended [] hnumbered ?_ (by simp)
      (Entry.held_perm_of_settled rfl (change.held n))
    rw [List.append_nil]
    exact change.ready_same n
  | @requeued queue h b holds change =>
    refine Entry.balances_of_perm hnumbered rfl (change.copies_perm ?_ n)
    -- no other message is held under this tag, so that one leaves and one comes back
    have hperm := (perm_filter_tag (s.broker.heldMessages queue) h.tag).map fun g => g.message.copy
    rw [htagged.filter_tag holds, List.perm_iff_count] at hperm
    rw [copies_eq]
    refine List.perm_iff_count.mpr fun x => ?_
    have := hperm x
    simp only [List.map_append, List.map_cons, List.map_nil, List.count_append, List.count_cons,
      List.count_nil, comeBack] at this ⊢
    omega
  | @died queue h b b' new holds change put =>
    refine Entry.balances_of_appended (new n) hnumbered ?_ (fun m hm => ?_)
      (Entry.held_perm_of_settled rfl ((put.held n).trans (change.held n)))
    · rw [put.ready, change.ready_same]
    · have := (put.fresh n m hm).1
      rwa [change.lastCopy] at this
  | @closed id c b found change =>
    refine Entry.balances_of_perm hnumbered rfl (change.copies_perm ?_ n)
    have hperm := (List.filter_append_perm (fun h : HeldMessage => h.consumer == c.id)
      (s.broker.heldMessages c.queue)).map fun h => h.message.copy
    have hback : ∀ held : List HeldMessage, (held.map comeBack).map StoredMessage.copy =
        held.map fun h => h.message.copy := fun held => by rw [List.map_map]; rfl
    rw [List.perm_iff_count] at hperm
    rw [copies_eq]
    refine List.perm_iff_count.mpr fun x => ?_
    have := hperm x
    simp only [List.map_append, List.count_append, hback, bne] at this ⊢
    omega

inductive Entry.Source (e : Entry) : StoredMessage → Prop where
  | sent {o : Outbound} (op : e.op = .send o) : Source e (fresh o)
  | died {queue : String} {h : HeldMessage} {t : DeadLetterTarget}
      (op : e.op = .reject queue h.tag false) (holds : h ∈ e.before.heldMessages queue)
      (leads : e.before.deadLetterTarget? queue = some t) : Source e (deadAt h.message t)

theorem arrivals_of_died (hnumbered : Numbered s.broker) {queue : String} {held : List HeldMessage}
    {b₀ : Broker} {m : StoredMessage} {targets : List String} {new : String → List StoredMessage}
    (change : Changed queue (s.broker.readyMessages queue) held s.broker b₀)
    (put : Posted m targets b₀ b new) (n : String) :
    (⟨s.broker, op, reply, b⟩ : Entry).arrivals n = new n := by
  refine Entry.arrivals_eq ((put.ready n).trans (by rw [change.ready_same])) (hnumbered.ready n)
    fun x hx => ?_
  exact change.lastCopy ▸ (put.fresh n x hx).1

theorem Effect.arrivals_cases (hnumbered : Numbered s.broker) (h : Effect s op reply b) :
    ((∀ n, (⟨s.broker, op, reply, b⟩ : Entry).arrivals n = []) ∧
      s.broker.lastCopy ≤ b.lastCopy) ∨
    ∃ m b₀ new, (⟨s.broker, op, reply, b⟩ : Entry).Source m ∧
      Posted m (s.broker.knownTargets m.exchange m.routingKey) b₀ b new ∧
      b₀.lastCopy = s.broker.lastCopy ∧
      ∀ n, (⟨s.broker, op, reply, b⟩ : Entry).arrivals n = new n := by
  cases h with
  | quiet _ same =>
    refine .inl ⟨fun n => Entry.arrivals_eq_nil ?_, Nat.le_of_eq same.lastCopy.symm⟩
    exact same.messages.ready n ▸ hnumbered.ready n
  | @posted o c b new put =>
    refine .inr ⟨fresh o, s.broker, new, .sent rfl, put, rfl, fun n => ?_⟩
    exact Entry.arrivals_eq (put.ready n) (hnumbered.ready n) fun m hm => (put.fresh n m hm).1
  | @taken id c m rest b found ready change =>
    refine .inl ⟨fun n => Entry.arrivals_eq_nil fun x hx => hnumbered.ready n x ?_,
      Nat.le_of_eq change.lastCopy.symm⟩
    rw [change.ready] at hx
    split at hx
    · next hn =>
      rw [hn, ready]
      exact .tail _ hx
    · exact hx
  | acked holds change =>
    exact .inl ⟨fun n => Entry.arrivals_eq_nil (change.ready_same n ▸ hnumbered.ready n),
      Nat.le_of_eq change.lastCopy.symm⟩
  | @requeued queue h b holds change =>
    refine .inl ⟨fun n => Entry.arrivals_eq_nil fun x hx => ?_,
      Nat.le_of_eq change.lastCopy.symm⟩
    rw [change.ready] at hx
    split at hx
    · rcases List.mem_cons.mp hx with rfl | hx
      · exact hnumbered queue h.message (mem_messages_of_held holds)
      · exact hnumbered.ready _ x hx
    · exact hnumbered.ready n x hx
  | @closed id c b found change =>
    refine .inl ⟨fun n => Entry.arrivals_eq_nil fun x hx => ?_,
      Nat.le_of_eq change.lastCopy.symm⟩
    rw [change.ready] at hx
    split at hx
    · rcases List.mem_append.mp hx with hx | hx
      · obtain ⟨h, hh, rfl⟩ := List.mem_map.mp hx
        exact hnumbered c.queue h.message (mem_messages_of_held (List.mem_filter.mp hh).1)
      · exact hnumbered.ready _ x hx
    · exact hnumbered.ready n x hx
  | @died queue h b₀ b new holds change put =>
    have hnew : ∀ n, (⟨s.broker, .reject queue h.tag false, .done, b⟩ : Entry).arrivals n = new n :=
      arrivals_of_died hnumbered change put
    -- without a target the message is gone, and nothing arrives
    cases ht : s.broker.deadLetterTarget? queue with
    | none =>
      rw [ht] at put
      refine .inl ⟨fun n => (hnew n).trans ?_, change.lastCopy ▸ put.lastCopy⟩
      exact List.length_eq_zero_iff.mp (put.count n)
    | some t =>
      rw [ht] at put
      exact .inr ⟨deadAt h.message t, b₀, new, .died rfl holds ht, put, change.lastCopy, hnew⟩

/-- A message that is rejected for good arrives in each queue as often as its dead-letter target
leads there. -/
theorem Effect.deadLettered (htagged : Tagged s.broker) (hnumbered : Numbered s.broker)
    {queue : String} {g : HeldMessage} {t : DeadLetterTarget}
    (h : Effect s (.reject queue g.tag false) .done b) (holds : g ∈ s.broker.heldMessages queue)
    (leads : s.broker.deadLetterTarget? queue = some t) (n : String) :
    ((⟨s.broker, .reject queue g.tag false, .done, b⟩ : Entry).arrivals n).length =
        (s.broker.knownTargets t.exchange t.routingKey).count n ∧
      ∀ x ∈ (⟨s.broker, .reject queue g.tag false, .done, b⟩ : Entry).arrivals n,
        x = { deadAt g.message t with copy := x.copy } := by
  generalize hop : Op.reject queue g.tag false = op at h
  generalize hreply : Reply.done = reply at h
  cases h with
  | quiet silent =>
    subst hop hreply
    exact silent.elim
  | posted | taken | acked | closed => cases hop
  | requeued =>
    injection hop with _ _ hback
    cases hback
  | @died queue' g' b₀ b new holds' change put =>
    injection hop with hqueue htag
    subst hqueue
    obtain rfl := htagged.eq_of_tag holds holds' htag
    rw [leads] at put
    rw [arrivals_of_died hnumbered change put]
    exact ⟨put.count n, put.alike n⟩

/-- The numbers that arriving copies get are new, rise in each queue, and differ between queues. -/
structure Entry.Orderly (e : Entry) : Prop where
  lastCopy : e.before.lastCopy ≤ e.after.lastCopy
  fresh : ∀ n, ∀ m ∈ e.arrivals n, e.before.lastCopy < m.copy ∧ m.copy ≤ e.after.lastCopy
  ascending : ∀ n, (e.arrivals n).Pairwise fun x y => x.copy < y.copy
  apart : ∀ n n', ∀ x ∈ e.arrivals n, ∀ y ∈ e.arrivals n', x.copy = y.copy → n = n'

theorem Effect.orderly (hnumbered : Numbered s.broker) (h : Effect s op reply b) :
    (⟨s.broker, op, reply, b⟩ : Entry).Orderly := by
  rcases h.arrivals_cases hnumbered with ⟨hnone, hlast⟩ | ⟨m, b₀, new, -, put, hlast, hnew⟩
  · exact ⟨hlast, by simp [hnone], by simp [hnone], by simp [hnone]⟩
  · refine ⟨hlast ▸ put.lastCopy, ?_, ?_, ?_⟩
    · simp only [hnew]
      exact hlast ▸ put.fresh
    · simp only [hnew]
      exact put.ascending
    · simp only [hnew]
      exact put.apart

theorem Effect.origin (hnumbered : Numbered s.broker) (h : Effect s op reply b) {n : String}
    {x : StoredMessage} (hx : x ∈ (⟨s.broker, op, reply, b⟩ : Entry).arrivals n) :
    ∃ m, (⟨s.broker, op, reply, b⟩ : Entry).Source m ∧ x = { m with copy := x.copy } := by
  rcases h.arrivals_cases hnumbered with ⟨hnone, -⟩ | ⟨m, b₀, new, hsource, put, -, hnew⟩
  · rw [hnone] at hx
    exact absurd hx List.not_mem_nil
  · rw [hnew] at hx
    exact ⟨m, hsource, put.alike n x hx⟩

end Bus

namespace Broker

def Kept (b : Broker) (n : String) (x : StoredMessage) : Prop :=
  ∃ y ∈ b.messages n, x = { y with redelivered := x.redelivered }

variable {b b' : Broker} {n : String}

theorem kept_of_mem {x : StoredMessage} (h : x ∈ b.messages n) : b.Kept n x :=
  ⟨x, h, rfl⟩

theorem kept_comeBack {h : HeldMessage} (hh : h ∈ b.heldMessages n) : b.Kept n (comeBack h) :=
  ⟨h.message, mem_messages_of_held hh, rfl⟩

theorem Changed.kept {ready : List StoredMessage} {held : List HeldMessage}
    (h : Changed n ready held b b') (hready : ∀ m ∈ ready, b.Kept n m)
    (hheld : ∀ g ∈ held, b.Kept n g.message) (k : String) {x : StoredMessage}
    (hx : x ∈ b'.messages k) : b.Kept k x := by
  rw [messages, h.ready, h.held] at hx
  split at hx
  · next hk =>
    subst hk
    rcases List.mem_append.mp hx with hx | hx
    · exact hready x hx
    · obtain ⟨g, hg, rfl⟩ := List.mem_map.mp hx
      exact hheld g hg
  · exact kept_of_mem hx

end Broker

namespace Bus

open Broker

variable {s : Bus} {op : Op} {reply : Reply} {b : Broker}

theorem Effect.kept (h : Effect s op reply b) {n : String} {x : StoredMessage}
    (hx : x ∈ b.messages n) :
    s.broker.Kept n x ∨ x ∈ (⟨s.broker, op, reply, b⟩ : Entry).arrivals n := by
  have hfilter : ∀ (p : HeldMessage → Bool) (queue : String),
      ∀ g ∈ (s.broker.heldMessages queue).filter p, s.broker.Kept queue g.message :=
    fun p queue g hg => kept_of_mem (mem_messages_of_held (List.mem_filter.mp hg).1)
  have hready : ∀ queue, ∀ m ∈ s.broker.readyMessages queue, s.broker.Kept queue m :=
    fun queue m hm => kept_of_mem (mem_messages_of_ready hm)
  cases h with
  | quiet _ same =>
    rw [messages, same.messages.ready, same.messages.held] at hx
    exact .inl (kept_of_mem hx)
  | @posted o c b new put =>
    rw [messages, put.ready, put.held, List.append_assoc, List.mem_append, List.mem_append] at hx
    rcases hx with hx | hx | hx
    · exact .inl (kept_of_mem (mem_messages_of_ready hx))
    · refine .inr (List.mem_filter.mpr ⟨?_, by simpa using (put.fresh n x hx).1⟩)
      rw [put.ready]
      exact List.mem_append_right _ hx
    · exact .inl (kept_of_mem (List.mem_append_right _ hx))
  | @taken id c m rest b found ready change =>
    refine .inl (change.kept (fun y hy => ?_) (fun g hg => ?_) n hx)
    · exact hready c.queue y (ready ▸ .tail _ hy)
    · rcases List.mem_append.mp hg with hg | hg
      · exact kept_of_mem (mem_messages_of_held hg)
      · rw [List.mem_singleton.mp hg]
        exact hready c.queue m (ready ▸ .head _)
  | acked holds change => exact .inl (change.kept (hready _) (hfilter _ _) n hx)
  | @requeued queue h b holds change =>
    refine .inl (change.kept (fun y hy => ?_) (hfilter _ _) n hx)
    rcases List.mem_cons.mp hy with rfl | hy
    · exact kept_comeBack holds
    · exact hready queue y hy
  | @closed id c b found change =>
    refine .inl (change.kept (fun y hy => ?_) (hfilter _ _) n hx)
    rcases List.mem_append.mp hy with hy | hy
    · obtain ⟨g, hg, rfl⟩ := List.mem_map.mp hy
      exact kept_comeBack (List.mem_filter.mp hg).1
    · exact hready c.queue y hy
  | @died queue h b₀ b new holds change put =>
    rw [messages, put.ready, put.held, List.append_assoc, List.mem_append, List.mem_append] at hx
    have hkept : ∀ y ∈ b₀.messages n, s.broker.Kept n y :=
      fun y hy => change.kept (hready _) (hfilter _ _) n hy
    rcases hx with hx | hx | hx
    · exact .inl (hkept x (mem_messages_of_ready hx))
    · refine .inr (List.mem_filter.mpr ⟨?_, ?_⟩)
      · rw [put.ready]
        exact List.mem_append_right _ hx
      · have := (put.fresh n x hx).1
        rw [change.lastCopy] at this
        simpa using this
    · exact .inl (hkept x (List.mem_append_right _ hx))

end Bus
end OutcomeRelay
