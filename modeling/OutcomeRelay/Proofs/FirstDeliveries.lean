import OutcomeRelay.Proofs.BusDeliveries

/-!
The order of first deliveries. In each queue the messages that came back stand before those that
were never delivered from it, and these wait in the order of their arrival. So a queue hands out its
copies for the first time in the order in which they came to it, and a delivery is marked as
redelivered exactly if its copy was handed out before.
-/

namespace OutcomeRelay

namespace Bus

open Broker

namespace Entry

def handed (e : Entry) (queue : String) : List HeldMessage :=
  (e.after.heldMessages queue).filter fun g => e.before.lastTag < g.tag

/-- What an operation can do to the order of a queue: held messages come back to its head and new
copies to its tail, or its head is handed out. -/
inductive Passes (e : Entry) (queue : String) : Prop where
  | stayed (back : List HeldMessage) (held : ∀ g ∈ back, g ∈ e.before.heldMessages queue)
      (ready : e.after.readyMessages queue =
        back.map comeBack ++ e.before.readyMessages queue ++ e.arrivals queue)
      (handed : e.handed queue = []) (undelivered : ∀ d, e.delivered? = some d → d.queue ≠ queue)
  | taken (g : HeldMessage)
      (ready : e.before.readyMessages queue = g.message :: e.after.readyMessages queue)
      (handed : e.handed queue = [g]) (arrivals : e.arrivals queue = [])
      (delivered : e.delivered? = some (delivery queue g.tag g.message))

variable {e : Entry} {n : String}

theorem handed_eq_nil (htagged : Tagged e.before)
    (kept : ∀ g ∈ e.after.heldMessages n, g ∈ e.before.heldMessages n) : e.handed n = [] := by
  refine List.filter_eq_nil_iff.mpr fun g hg => ?_
  have hgiven := htagged.bounded n g (kept g hg)
  simpa using hgiven

theorem passes_of_stayed (htagged : Tagged e.before) (hnumbered : Numbered e.before)
    (undelivered : ∀ d, e.delivered? = some d → d.queue ≠ n) (back : List HeldMessage)
    (new : List StoredMessage) (held : ∀ g ∈ back, g ∈ e.before.heldMessages n)
    (ready : e.after.readyMessages n = back.map comeBack ++ e.before.readyMessages n ++ new)
    (fresh : ∀ m ∈ new, e.before.lastCopy < m.copy)
    (kept : ∀ g ∈ e.after.heldMessages n, g ∈ e.before.heldMessages n) : e.Passes n := by
  have hold : ∀ m ∈ back.map comeBack ++ e.before.readyMessages n, m.copy ≤ e.before.lastCopy := by
    intro m hm
    rcases List.mem_append.mp hm with hm | hm
    · obtain ⟨g, hg, rfl⟩ := List.mem_map.mp hm
      exact hnumbered n g.message (mem_messages_of_held (held g hg))
    · exact hnumbered.ready n m hm
  have harrivals : e.arrivals n = new := arrivals_eq ready hold fresh
  exact .stayed back held (harrivals ▸ ready) (handed_eq_nil htagged kept) undelivered

end Entry

theorem passes_perform {s : Bus} (htagged : Tagged s.broker) (hnumbered : Numbered s.broker)
    (op : Op) (n : String) :
    (⟨s.broker, op, (s.perform op).2, (s.perform op).1.broker⟩ : Entry).Passes n := by
  have heffect := perform_effect s op
  have hpoll : ∀ d, (s.perform op).2 = .polled (.delivered d) → ∃ id, op = .poll id :=
    fun d => poll_of_polled
  generalize (s.perform op).2 = reply at heffect hpoll ⊢
  generalize (s.perform op).1.broker = b at heffect ⊢
  have hsame : ∀ d, (⟨s.broker, op, reply, b⟩ : Entry).delivered? = some d →
      reply = .polled (.delivered d) := fun d => Entry.delivered?_eq_some
  cases heffect with
  | quiet silent same =>
    refine Entry.passes_of_stayed htagged hnumbered (fun d hd => ?_) [] [] (by simp) ?_ (by simp) ?_
    · obtain rfl := hsame d hd
      obtain ⟨id, rfl⟩ := hpoll d rfl
      exact silent.elim
    · simpa using same.messages.ready n
    · intro g hg
      exact same.messages.held n ▸ hg
  | @posted o c b new put =>
    refine Entry.passes_of_stayed htagged hnumbered nofun [] (new n) (by simp) ?_ ?_ ?_
    · exact put.ready n
    · exact fun m hm => (put.fresh n m hm).1
    · intro g hg
      exact put.held n ▸ hg
  | @acked queue h b holds change =>
    refine Entry.passes_of_stayed htagged hnumbered nofun [] [] (by simp) ?_ (by simp) ?_
    · simpa using change.ready_same n
    · intro g hg
      exact (change.held_sublist List.filter_sublist n).subset hg
  | @requeued queue h b holds change =>
    have hkept : ∀ g ∈ b.heldMessages n, g ∈ s.broker.heldMessages n :=
      fun g hg => (change.held_sublist List.filter_sublist n).subset hg
    have hready := change.ready n
    by_cases hn : n = queue
    · subst hn
      refine Entry.passes_of_stayed htagged hnumbered nofun [h] [] (by simpa using holds) ?_
        (by simp) hkept
      simpa using hready
    · refine Entry.passes_of_stayed htagged hnumbered nofun [] [] (by simp) ?_ (by simp) hkept
      simpa [hn] using hready
  | @died queue h b₀ b new holds change put =>
    refine Entry.passes_of_stayed htagged hnumbered nofun [] (new n) (by simp) ?_ ?_ ?_
    · exact (put.ready n).trans (by rw [change.ready_same]; rfl)
    · intro m hm
      exact change.lastCopy ▸ (put.fresh n m hm).1
    · intro g hg
      exact (change.held_sublist List.filter_sublist n).subset (put.held n ▸ hg)
  | @closed id c b found change =>
    have hkept : ∀ g ∈ b.heldMessages n, g ∈ s.broker.heldMessages n :=
      fun g hg => (change.held_sublist List.filter_sublist n).subset hg
    have hready := change.ready n
    by_cases hn : n = c.queue
    · subst hn
      refine Entry.passes_of_stayed htagged hnumbered nofun
        ((s.broker.heldMessages c.queue).filter fun h => h.consumer == c.id) [] ?_ ?_ (by simp)
        hkept
      · exact fun g hg => (List.mem_filter.mp hg).1
      · simpa using hready
    · refine Entry.passes_of_stayed htagged hnumbered nofun [] [] (by simp) ?_ (by simp) hkept
      simpa [hn] using hready
  | @taken id c m rest b found ready change =>
    have hready := change.ready n
    have hheld := change.held n
    by_cases hn : n = c.queue
    · subst hn
      rw [if_pos rfl] at hready hheld
      refine .taken ⟨s.broker.lastTag + 1, c.id, m⟩ ?_ ?_ ?_ rfl
      · exact ready.trans (hready ▸ rfl)
      · -- all that was held before has an older tag
        have hold : (s.broker.heldMessages c.queue).filter
            (fun g => decide (s.broker.lastTag < g.tag)) = [] :=
          List.filter_eq_nil_iff.mpr fun g hg => by simpa using htagged.bounded c.queue g hg
        simp only [Entry.handed, hheld, List.filter_append, hold]
        simp
      · refine Entry.arrivals_eq_nil fun x hx => ?_
        rw [hready] at hx
        exact hnumbered.ready c.queue x (ready ▸ .tail _ hx)
    · rw [if_neg hn] at hready hheld
      refine Entry.passes_of_stayed htagged hnumbered (fun d hd => ?_) [] [] (by simp) ?_
        (by simp) ?_
      · obtain rfl := Option.some.inj hd
        exact Ne.symm hn
      · exact hready.trans (List.append_nil _).symm
      · intro g hg
        exact hheld ▸ hg

theorem Entry.Sound.arrivals_unmarked {e : Entry} (h : e.Sound) {n : String} {m : StoredMessage}
    (hm : m ∈ e.arrivals n) : m.redelivered = false := by
  obtain ⟨x, hsource, heq⟩ := h.origin hm
  rw [heq]
  cases hsource <;> rfl

theorem held_or_handed {s : Bus} {op : Op} {reply : Reply} {b : Broker}
    (h : Effect s op reply b) {n : String} {g : HeldMessage} (hg : g ∈ b.heldMessages n) :
    g ∈ s.broker.heldMessages n ∨ g ∈ (⟨s.broker, op, reply, b⟩ : Entry).handed n := by
  rcases h.held_cases hg with hold | ⟨-, -, htag, -⟩
  · exact .inl hold
  · refine .inr (List.mem_filter.mpr ⟨hg, ?_⟩)
    simp [htag]

namespace History

def handed (h : History) (queue : String) : List HeldMessage :=
  h.entries.flatMap fun e => e.handed queue

def handedCopies (h : History) (queue : String) : List Nat :=
  (h.handed queue).map fun g => g.message.copy

def undelivered (h : History) (queue : String) : List StoredMessage :=
  (h.arrived queue).filter fun m => m.copy ∉ h.handedCopies queue

/-- The order in which a queue delivers. The deliveries from it are the messages that it handed out;
messages that came back wait before the copies that were never delivered, and only they are marked;
a copy is delivered for the first time when all that came before it have been; and a delivery is
marked if its copy was delivered before. -/
structure InTurn (h : History) (n : String) : Prop where
  deliveries : (h.handed n).map (fun g => delivery n g.tag g.message) =
    h.deliveries.filter fun d => d.queue == n
  ready : ∃ back, h.broker.readyMessages n = back ++ h.undelivered n ∧
    ∀ m ∈ back, m.redelivered = true ∧ m.copy ∈ h.handedCopies n
  unmarked : ∀ m ∈ h.undelivered n, m.redelivered = false
  firsts : (h.handedCopies n).eraseDups ++ (h.undelivered n).map StoredMessage.copy =
    (h.arrived n).map StoredMessage.copy
  marked : ∀ earlier g later, h.handed n = earlier ++ g :: later →
    ((delivery n g.tag g.message).redelivered = true ↔
      ∃ g' ∈ earlier, g'.message.copy = g.message.copy)

variable {h : History} {n : String}

theorem handed_perform (h : History) (op : Op) (n : String) :
    (h.perform op).1.handed n = h.handed n ++ (h.next op).handed n := by
  simp [handed, entries_perform]

theorem handedCopies_perform (h : History) (op : Op) (n : String) :
    (h.perform op).1.handedCopies n =
      h.handedCopies n ++ ((h.next op).handed n).map fun g => g.message.copy := by
  rw [handedCopies, handed_perform, List.map_append, handedCopies]

theorem deliveries_next (h : History) (op : Op) (n : String) :
    (h.perform op).1.deliveries.filter (fun d => d.queue == n) =
      h.deliveries.filter (fun d => d.queue == n) ++
        (h.next op).delivered?.toList.filter fun d => d.queue == n := by
  rw [Delivering.deliveries_perform, List.filter_append]

def HeldHanded (h : History) (n : String) : Prop :=
  ∀ g ∈ h.broker.heldMessages n, g.message.copy ∈ h.handedCopies n

theorem HeldHanded.perform (hh : h.HeldHanded n) (op : Op) : (h.perform op).1.HeldHanded n := by
  intro g hg
  rw [handedCopies_perform, List.mem_append]
  rcases held_or_handed (perform_effect h.bus op) hg with hold | hnew
  · exact .inl (hh g hold)
  · exact .inr (List.mem_map_of_mem hnew)

theorem eraseDups_concat_of_mem {c : Nat} {cs : List Nat} (hc : c ∈ cs) :
    (cs ++ [c]).eraseDups = cs.eraseDups := by
  rw [List.eraseDups_append]
  simp [List.removeAll, hc]

theorem eraseDups_concat_of_not_mem {c : Nat} {cs : List Nat} (hc : c ∉ cs) :
    (cs ++ [c]).eraseDups = cs.eraseDups ++ [c] := by
  rw [List.eraseDups_append]
  simp [List.removeAll, hc, List.eraseDups_cons]

namespace InTurn

theorem init (n : String) : InTurn {} n :=
  ⟨rfl, ⟨[], rfl, by simp⟩, nofun, rfl, by simp [handed]⟩

theorem bounded (ht : h.InTurn n) (hb : Books h) :
    ∀ c ∈ h.handedCopies n, c ≤ h.broker.lastCopy := by
  intro c hc
  have harrived : c ∈ (h.arrived n).map StoredMessage.copy :=
    ht.firsts ▸ List.mem_append_left _ (List.mem_eraseDups.mpr hc)
  obtain ⟨m, hm, rfl⟩ := List.mem_map.mp harrived
  exact hb.bounded n m hm

theorem stayed (ht : h.InTurn n) (hb : Books h) (hh : h.HeldHanded n) {op : Op}
    {back : List HeldMessage} (held : ∀ g ∈ back, g ∈ h.broker.heldMessages n)
    (hready : (h.perform op).1.broker.readyMessages n =
      back.map comeBack ++ h.broker.readyMessages n ++ (h.next op).arrivals n)
    (hhanded : (h.next op).handed n = [])
    (hnone : ∀ d, (h.next op).delivered? = some d → d.queue ≠ n) : (h.perform op).1.InTurn n := by
  have hsound := hb.sound_next op
  have hsame : (h.perform op).1.handed n = h.handed n := by
    rw [handed_perform, hhanded, List.append_nil]
  have hcopies : (h.perform op).1.handedCopies n = h.handedCopies n := by
    rw [handedCopies, hsame, handedCopies]
  -- what arrives has a number that was not given before, so that it was not handed out
  have hnew : ((h.next op).arrivals n).filter (fun m => m.copy ∉ h.handedCopies n) =
      (h.next op).arrivals n := by
    refine List.filter_eq_self.mpr fun m hm => ?_
    have hfresh := (hsound.orderly.fresh n m hm).1
    have hbounded := ht.bounded hb m.copy
    simp only [decide_eq_true_eq]
    intro hmem
    exact absurd (hbounded hmem) (Nat.not_le_of_lt hfresh)
  have hundelivered : (h.perform op).1.undelivered n =
      h.undelivered n ++ (h.next op).arrivals n := by
    rw [undelivered, hcopies, arrived_perform, List.filter_append, hnew, undelivered]
  obtain ⟨old, hold, hmarked⟩ := ht.ready
  refine ⟨?_, ⟨back.map comeBack ++ old, ?_, ?_⟩, ?_, ?_, ?_⟩
  · have hdelivered : (h.next op).delivered?.toList.filter (fun d => d.queue == n) = [] := by
      refine List.filter_eq_nil_iff.mpr fun d hd => ?_
      simpa using hnone d (Option.mem_toList.mp hd)
    rw [hsame, deliveries_next, hdelivered, List.append_nil]
    exact ht.deliveries
  · rw [hready, hold, hundelivered]
    simp only [List.append_assoc]
  · rw [hcopies]
    intro m hm
    rcases List.mem_append.mp hm with hm | hm
    · obtain ⟨g, hg, rfl⟩ := List.mem_map.mp hm
      exact ⟨rfl, hh g (held g hg)⟩
    · exact hmarked m hm
  · rw [hundelivered]
    intro m hm
    rcases List.mem_append.mp hm with hm | hm
    · exact ht.unmarked m hm
    · exact hsound.arrivals_unmarked hm
  · rw [hcopies, hundelivered, arrived_perform, List.map_append, List.map_append, ← ht.firsts,
      List.append_assoc]
  · rw [hsame]
    exact ht.marked

theorem head_cases (ht : h.InTurn n) {m : StoredMessage} {rest : List StoredMessage}
    (hready : h.broker.readyMessages n = m :: rest) :
    (m.redelivered = true ∧ m.copy ∈ h.handedCopies n ∧ ∃ back, rest = back ++ h.undelivered n ∧
      ∀ x ∈ back, x.redelivered = true ∧ x.copy ∈ h.handedCopies n) ∨
    (m.redelivered = false ∧ m.copy ∉ h.handedCopies n ∧ h.undelivered n = m :: rest) := by
  obtain ⟨back, hold, hmarked⟩ := ht.ready
  rw [hready] at hold
  cases back with
  | nil =>
    have hfirst : h.undelivered n = m :: rest := hold.symm
    have hmem : m ∈ h.undelivered n := hfirst ▸ .head _
    have hnew : m.copy ∉ h.handedCopies n := by simpa using (List.mem_filter.mp hmem).2
    exact .inr ⟨ht.unmarked m hmem, hnew, hfirst⟩
  | cons x back =>
    rw [List.cons_append] at hold
    obtain ⟨rfl, rfl⟩ := List.cons.inj hold
    obtain ⟨hmark, hcopy⟩ := hmarked m (.head _)
    exact .inl ⟨hmark, hcopy, back, rfl, fun y hy => hmarked y (.tail _ hy)⟩

section Taken

variable {op : Op} {g : HeldMessage} (hhanded : (h.next op).handed n = [g])

include hhanded

theorem handed_taken : (h.perform op).1.handed n = h.handed n ++ [g] := by
  rw [handed_perform, hhanded]

theorem handedCopies_taken :
    (h.perform op).1.handedCopies n = h.handedCopies n ++ [g.message.copy] := by
  rw [handedCopies_perform, hhanded, List.map_singleton]

theorem undelivered_taken (harrived : (h.perform op).1.arrived n = h.arrived n) :
    (h.perform op).1.undelivered n =
      (h.undelivered n).filter fun x => x.copy ≠ g.message.copy := by
  rw [undelivered, handedCopies_taken hhanded, harrived, undelivered, List.filter_filter]
  refine List.filter_congr fun x _ => ?_
  simp [and_comm]

theorem deliveries_taken (ht : h.InTurn n)
    (hdelivered : (h.next op).delivered? = some (delivery n g.tag g.message)) :
    ((h.perform op).1.handed n).map (fun g => delivery n g.tag g.message) =
      (h.perform op).1.deliveries.filter fun d => d.queue == n := by
  have hone : (h.next op).delivered?.toList.filter (fun d => d.queue == n) =
      [delivery n g.tag g.message] := by
    rw [hdelivered, Option.toList_some]
    exact List.filter_eq_self.mpr fun d hd => by simp [List.mem_singleton.mp hd, delivery]
  rw [handed_taken hhanded, deliveries_next, hone, List.map_append, ht.deliveries,
    List.map_singleton]

theorem marked_taken (ht : h.InTurn n)
    (hmark : g.message.redelivered = true ↔ g.message.copy ∈ h.handedCopies n)
    {earlier later : List HeldMessage} {x : HeldMessage}
    (hsplit : (h.perform op).1.handed n = earlier ++ x :: later) :
    (delivery n x.tag x.message).redelivered = true ↔
      ∃ y ∈ earlier, y.message.copy = x.message.copy := by
  rw [handed_taken hhanded] at hsplit
  rcases List.eq_nil_or_concat later with rfl | ⟨later, last, rfl⟩
  · obtain ⟨rfl, rfl⟩ := List.append_singleton_inj.mp hsplit
    exact hmark.trans List.mem_map
  · rw [List.concat_eq_append, ← List.cons_append, ← List.append_assoc,
      List.append_singleton_inj] at hsplit
    exact ht.marked earlier x later hsplit.1

end Taken

theorem taken (ht : h.InTurn n) (hb : Books h) {op : Op} {g : HeldMessage}
    (hready : h.broker.readyMessages n = g.message :: (h.perform op).1.broker.readyMessages n)
    (hhanded : (h.next op).handed n = [g]) (harrivals : (h.next op).arrivals n = [])
    (hdelivered : (h.next op).delivered? = some (delivery n g.tag g.message)) :
    (h.perform op).1.InTurn n := by
  have harrived : (h.perform op).1.arrived n = h.arrived n := by
    rw [arrived_perform, harrivals, List.append_nil]
  have hcopies := handedCopies_taken hhanded
  have hundelivered := undelivered_taken hhanded harrived
  have hdeliveries := deliveries_taken hhanded ht hdelivered
  have hunmarked : ∀ m ∈ (h.perform op).1.undelivered n, m.redelivered = false := by
    rw [hundelivered]
    exact fun m hm => ht.unmarked m (List.mem_filter.mp hm).1
  rcases ht.head_cases hready with ⟨hmark, hold, back, hrest, hback⟩ | ⟨hmark, hnew, hfirst⟩
  · -- a copy that was handed out is none of those that were not
    have hsame : (h.perform op).1.undelivered n = h.undelivered n := by
      rw [hundelivered]
      refine List.filter_eq_self.mpr fun x hx => ?_
      have hx : x.copy ∉ h.handedCopies n := by simpa using (List.mem_filter.mp hx).2
      simp only [decide_eq_true_eq]
      exact fun heq => hx (heq ▸ hold)
    refine ⟨hdeliveries, ⟨back, hsame ▸ hrest, fun x hx => ?_⟩, hunmarked, ?_, ?_⟩
    · rw [hcopies]
      exact ⟨(hback x hx).1, List.mem_append_left _ (hback x hx).2⟩
    · rw [hcopies, eraseDups_concat_of_mem hold, hsame, harrived]
      exact ht.firsts
    · have hiff : g.message.redelivered = true ↔ g.message.copy ∈ h.handedCopies n :=
        iff_of_true hmark hold
      exact fun earlier x later => marked_taken hhanded ht hiff
  · have hrest : (h.perform op).1.undelivered n = (h.perform op).1.broker.readyMessages n := by
      have hapart : (h.undelivered n).Pairwise fun x y => x.copy < y.copy :=
        (hb.ascending n).sublist List.filter_sublist
      rw [hfirst, List.pairwise_cons] at hapart
      rw [hundelivered, hfirst, List.filter_cons_of_neg (by simp)]
      exact List.filter_eq_self.mpr fun x hx => by simpa using Nat.ne_of_gt (hapart.1 x hx)
    refine ⟨hdeliveries, ⟨[], hrest.symm, nofun⟩, hunmarked, ?_, ?_⟩
    · rw [hcopies, eraseDups_concat_of_not_mem hnew, hrest, harrived, ← ht.firsts, hfirst,
        List.map_cons, List.append_assoc, List.singleton_append]
    · have hiff : g.message.redelivered = true ↔ g.message.copy ∈ h.handedCopies n :=
        iff_of_false (by simp [hmark]) hnew
      exact fun earlier x later => marked_taken hhanded ht hiff

theorem perform (ht : h.InTurn n) (hb : Books h) (hh : h.HeldHanded n) (op : Op) :
    (h.perform op).1.InTurn n := by
  have hpasses : (h.next op).Passes n := passes_perform hb.tagged hb.numbered op n
  cases hpasses with
  | stayed back held ready handed undelivered => exact ht.stayed hb hh held ready handed undelivered
  | taken g ready handed arrivals delivered => exact ht.taken hb ready handed arrivals delivered

end InTurn

/-- Whatever clients do, every queue delivers its copies for the first time in the order of their
arrival, and marks those that it delivers again. -/
theorem inTurn_of_run (ops : List Op) (n : String) : (run ops).InTurn n := by
  have hinit : Books {} ∧ HeldHanded {} n ∧ InTurn {} n :=
    ⟨.init, fun g hg => absurd hg List.not_mem_nil, .init n⟩
  have hstep : ∀ h op, Books h ∧ h.HeldHanded n ∧ h.InTurn n →
      Books (h.perform op).1 ∧ (h.perform op).1.HeldHanded n ∧ (h.perform op).1.InTurn n := by
    rintro h op ⟨hb, hh, ht⟩
    exact ⟨hb.perform op, hh.perform op, ht.perform hb hh op⟩
  exact (run_induction hinit hstep ops).2.2

end History
end Bus
end OutcomeRelay
