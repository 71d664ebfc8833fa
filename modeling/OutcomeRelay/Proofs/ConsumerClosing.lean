import Mathlib.Data.List.Infix
import OutcomeRelay.Proofs.BusCustody

/-!
Closing a consumer. All that it held goes back to the head of its queue in the order of the tags,
and nothing else is touched. So a queue whose messages are held by one consumer at a time, and come
back only when it is closed, keeps them in the order of their arrival: those that are held, by their
tags, before those that wait.
-/

namespace OutcomeRelay

namespace Broker

def heldBy (b : Broker) (queue : String) (consumer : Nat) : List HeldMessage :=
  (b.heldMessages queue).filter fun g => g.consumer == consumer

def putBack (ready : List StoredMessage) (back : List HeldMessage) : List StoredMessage :=
  back.foldl (fun ready g => comeBack g :: ready) ready

def latestFirst (held : List HeldMessage) : List HeldMessage :=
  held.mergeSort fun g h => h.tag ≤ g.tag

variable {b b' : Broker} {c : Consumer} {n : String}

theorem putBack_reverse (ready : List StoredMessage) (back : List HeldMessage) :
    putBack ready back.reverse = back.map comeBack ++ ready := by
  induction back with
  | nil => rfl
  | cons g back ih =>
    have hlast : putBack ready (back.reverse ++ [g]) = comeBack g :: putBack ready back.reverse :=
      List.foldl_concat ..
    rw [List.reverse_cons, hlast, ih, List.map_cons, List.cons_append]

theorem latestFirst_of_perm {held order : List HeldMessage}
    (ascending : held.Pairwise fun g h => g.tag < h.tag) (perm : order.Perm held) :
    latestFirst order = held.reverse := by
  have htags : ∀ g ∈ held, ∀ h ∈ held, g.tag = h.tag → g = h := by
    intro g hg h hh htag
    have hone := filter_tag_of_ascending ascending hh
    have hmem : g ∈ held.filter fun x => x.tag == h.tag :=
      List.mem_filter.mpr ⟨hg, by simpa using htag⟩
    rw [hone] at hmem
    exact List.mem_singleton.mp hmem
  have hsorted : (latestFirst order).Pairwise fun g h => h.tag ≤ g.tag := by
    have hle : (latestFirst order).Pairwise fun g h => decide (h.tag ≤ g.tag) := by
      refine List.pairwise_mergeSort (fun f g h => ?_) (fun g h => ?_) order
      · simp only [decide_eq_true_eq]
        omega
      · simp only [Bool.or_eq_true, decide_eq_true_eq]
        omega
    exact hle.imp fun h => of_decide_eq_true h
  have hreverse : held.reverse.Pairwise fun g h => h.tag ≤ g.tag :=
    List.pairwise_reverse.mpr (ascending.imp Nat.le_of_lt)
  have hperm : (latestFirst order).Perm held.reverse :=
    ((List.mergeSort_perm _ _).trans perm).trans (List.reverse_perm held).symm
  refine List.Perm.eq_of_pairwise (fun g h hg hh hge hle => ?_) hsorted hreverse hperm
  have hg : g ∈ held := List.mem_reverse.mp (hperm.subset hg)
  exact htags g hg h (List.mem_reverse.mp hh) (Nat.le_antisymm hle hge)

/-- What a consumer held is back at the head of its queue, marked and in the order of the tags. It
is the same as if it had been put back one by one, the latest first, from a collection without an
order. All else is as it was. -/
structure Restores (b b' : Broker) (c : Consumer) : Prop where
  tags : (b.heldBy c.queue c.id).Pairwise fun g h => g.tag < h.tag
  ready : b'.readyMessages c.queue =
    (b.heldBy c.queue c.id).map comeBack ++ b.readyMessages c.queue
  oneByOne : ∀ order, order.Perm (b.heldBy c.queue c.id) →
    b'.readyMessages c.queue = putBack (b.readyMessages c.queue) (latestFirst order)
  held : b'.heldMessages c.queue = (b.heldMessages c.queue).filter fun g => g.consumer != c.id
  queues : ∀ n, n ≠ c.queue → b'.queue? n = b.queue? n
  specs : ∀ n, b'.spec? n = b.spec? n
  rest : { b' with queues := b.queues } = b

theorem close_rest (b : Broker) (c : Consumer) :
    { (b.close c).1 with queues := b.queues } = b := by
  unfold close
  dsimp only
  repeat' split
  all_goals rfl

theorem queue?_close_of_ne (b : Broker) (c : Consumer) (h : n ≠ c.queue) :
    (b.close c).1.queue? n = b.queue? n := by
  unfold close
  dsimp only
  split
  · rfl
  split
  · rfl
  · rw [queue?_modifyQueue, if_neg h]
    exact fun _ => rfl

theorem restores_close (htagged : Tagged b) (c : Consumer) : Restores b (b.close c).1 c := by
  have hchanged := close_changed b c
  have hready : (b.close c).1.readyMessages c.queue =
      (b.heldBy c.queue c.id).map comeBack ++ b.readyMessages c.queue := by
    rw [hchanged.ready, if_pos rfl, heldBy]
  have htags : (b.heldBy c.queue c.id).Pairwise fun g h => g.tag < h.tag :=
    (htagged.ascending c.queue).sublist List.filter_sublist
  refine ⟨htags, hready, fun order horder => ?_, ?_, fun n hn => queue?_close_of_ne b c hn,
    hchanged.graph.specs, close_rest b c⟩
  · rw [hready, latestFirst_of_perm htags horder, putBack_reverse]
  · rw [hchanged.held, if_pos rfl]

theorem close_snd (b : Broker) (c : Consumer) :
    (b.close c).2.1 = { c with cancelled := true } := by
  unfold close
  dsimp only
  repeat' split
  all_goals rfl

theorem close_of_heldBy_nil (h : b.heldBy c.queue c.id = []) : (b.close c).1 = b := by
  unfold close
  dsimp only
  split
  · rfl
  · next q hq =>
    rw [heldBy, heldMessages_of_some hq] at h
    rw [h, if_pos List.isEmpty_nil]

theorem heldBy_close (b : Broker) (c : Consumer) : (b.close c).1.heldBy c.queue c.id = [] := by
  have hheld := (close_changed b c).held c.queue
  rw [if_pos rfl] at hheld
  rw [heldBy, hheld, List.filter_filter]
  exact List.filter_eq_nil_iff.mpr fun g _ => by simp

def standing (b : Broker) (queue : String) : List Nat :=
  (b.heldMessages queue).map (fun g => g.message.copy) ++
    (b.readyMessages queue).map StoredMessage.copy

def OneHolder (b : Broker) (queue : String) : Prop :=
  ∀ g ∈ b.heldMessages queue, ∀ g' ∈ b.heldMessages queue, g.consumer = g'.consumer

instance (b : Broker) (queue : String) : Decidable (b.OneHolder queue) :=
  inferInstanceAs (Decidable (∀ g ∈ b.heldMessages queue, ∀ g' ∈ b.heldMessages queue, _ = _))

theorem standing_perm (b : Broker) (n : String) : (b.standing n).Perm (b.copies n) := by
  rw [copies_eq]
  exact List.perm_append_comm

theorem standing_congr (held : b'.heldMessages n = b.heldMessages n)
    (ready : b'.readyMessages n = b.readyMessages n) : b'.standing n = b.standing n := by
  rw [standing, held, ready, standing]

theorem Changed.standing_of_ne {queue : String} {ready : List StoredMessage}
    {held : List HeldMessage} (h : Changed queue ready held b b') (hn : n ≠ queue) :
    b'.standing n = b.standing n :=
  standing_congr ((h.held n).trans (if_neg hn)) ((h.ready n).trans (if_neg hn))

theorem OneHolder.standing_closed (one : b.OneHolder n) (id : Nat) :
    ((b.heldMessages n).filter fun g => g.consumer != id).map (fun g => g.message.copy) ++
      ((b.heldBy n id).map comeBack ++ b.readyMessages n).map StoredMessage.copy =
    b.standing n := by
  have hback : ∀ held : List HeldMessage,
      (held.map comeBack).map StoredMessage.copy = held.map fun g => g.message.copy := by
    intro held
    rw [List.map_map]
    rfl
  rw [List.map_append, hback, heldBy, ← List.append_assoc, ← List.map_append, standing]
  congr 2
  by_cases hholds : ∃ g ∈ b.heldMessages n, g.consumer = id
  · obtain ⟨g, hg, rfl⟩ := hholds
    have hmine : (b.heldMessages n).filter (fun x => x.consumer == g.consumer) =
        b.heldMessages n :=
      List.filter_eq_self.mpr fun x hx => by simpa using one x hx g hg
    have hothers : (b.heldMessages n).filter (fun x => x.consumer != g.consumer) = [] :=
      List.filter_eq_nil_iff.mpr fun x hx => by simpa using one x hx g hg
    rw [hmine, hothers, List.nil_append]
  · have hmine : (b.heldMessages n).filter (fun x => x.consumer == id) = [] :=
      List.filter_eq_nil_iff.mpr fun x hx hid => hholds ⟨x, hx, by simpa using hid⟩
    have hothers : (b.heldMessages n).filter (fun x => x.consumer != id) = b.heldMessages n :=
      List.filter_eq_self.mpr fun x hx => by
        simpa using fun hid => hholds ⟨x, hx, hid⟩
    rw [hmine, hothers, List.append_nil]

end Broker

namespace Bus

open Broker

variable {s : Bus} {op : Op} {reply : Reply} {b : Broker} {n : String}

/-- An operation puts new copies behind all others and takes copies away, and changes nothing else
in the order of a queue, unless it puts one back alone. -/
theorem Effect.standing_sublist (hnumbered : Numbered s.broker) (h : Effect s op reply b)
    (one : s.broker.OneHolder n) (whole : ∀ tag, op ≠ .reject n tag true) :
    (b.standing n).Sublist (s.broker.standing n ++
      ((⟨s.broker, op, reply, b⟩ : Entry).arrivals n).map StoredMessage.copy) := by
  have hsame : ∀ {new : List Nat}, b.standing n = s.broker.standing n →
      (b.standing n).Sublist (s.broker.standing n ++ new) := by
    intro new heq
    rw [heq]
    exact List.sublist_append_left _ _
  cases h with
  | quiet _ same => exact hsame (standing_congr (same.messages.held n) (same.messages.ready n))
  | @posted o c b new put =>
    have harrived : (⟨s.broker, .send o, .confirmed c, b⟩ : Entry).arrivals n = new n :=
      Entry.arrivals_eq (put.ready n) (hnumbered.ready n) fun m hm => (put.fresh n m hm).1
    rw [harrived, standing, put.held, put.ready, List.map_append, ← List.append_assoc, standing]
  | @taken id c m rest b found ready change =>
    refine hsame ?_
    by_cases hn : n = c.queue
    · subst hn
      rw [standing, change.held, change.ready, if_pos rfl, if_pos rfl, standing, ready]
      simp
    · exact change.standing_of_ne hn
  | @acked queue g b holds change =>
    have hheld := change.held_sublist List.filter_sublist n
    rw [standing, change.ready_same]
    exact ((hheld.map _).append (.refl _)).trans (List.sublist_append_left _ _)
  | @requeued queue g b holds change =>
    have hn : n ≠ queue := fun hn => whole g.tag (by rw [hn])
    exact hsame (change.standing_of_ne hn)
  | @died queue g b₀ b new holds change put =>
    have hheld := change.held_sublist List.filter_sublist n
    rw [arrivals_of_died hnumbered change put, standing, put.held, put.ready, change.ready_same,
      List.map_append, ← List.append_assoc]
    exact ((hheld.map _).append (.refl _)).append (.refl _)
  | @closed id c b found change =>
    refine hsame ?_
    by_cases hn : n = c.queue
    · subst hn
      rw [standing, change.held, change.ready, if_pos rfl, if_pos rfl]
      exact one.standing_closed c.id
    · exact change.standing_of_ne hn

theorem perform_close {id : Nat} {c : Consumer} (h : s.consumer? id = some c) :
    s.perform (.close id) =
      (({ s with broker := (s.broker.close c).1 } : Bus).setConsumer { c with cancelled := true },
        .done) := by
  simp only [perform, h, close_snd]

theorem setConsumer_setConsumer (s : Bus) (c : Consumer) :
    (s.setConsumer c).setConsumer c = s.setConsumer c := by
  simp only [setConsumer, List.map_map]
  congr 1
  refine List.map_congr_left fun x _ => ?_
  by_cases hx : x.id = c.id <;> simp [hx]

theorem close_close (s : Bus) (id : Nat) :
    ((s.perform (.close id)).1.perform (.close id)).1 = (s.perform (.close id)).1 := by
  cases hc : s.consumer? id with
  | none => simp only [perform, hc]
  | some c =>
    obtain rfl := id_of_consumer? hc
    have hfind :
        (s.perform (.close c.id)).1.consumer? c.id = some { c with cancelled := true } := by
      have hset := consumer?_setConsumer { s with broker := (s.broker.close c).1 }
        { c with cancelled := true } c.id
      have hold : ({ s with broker := (s.broker.close c).1 } : Bus).consumer? c.id = some c := hc
      rw [if_pos rfl, hold, Option.map_some] at hset
      rw [perform_close hc]
      exact hset
    have hbroker : (s.perform (.close c.id)).1.broker = (s.broker.close c).1 := by
      rw [perform_close hc]
      rfl
    have hagain : ((s.broker.close c).1.close { c with cancelled := true }).1 =
        (s.broker.close c).1 :=
      close_of_heldBy_nil (c := { c with cancelled := true }) (heldBy_close s.broker c)
    rw [perform_close hfind, hbroker, hagain, perform_close hc]
    exact setConsumer_setConsumer { s with broker := (s.broker.close c).1 }
      { c with cancelled := true }

namespace History

variable {h : History}

/-- The copies of a queue stand in the order of their arrival: those that are held, in the order of
their tags, and then those that wait. None is missing that has not left for good. -/
structure InArrivalOrder (h : History) (n : String) : Prop where
  tags : (h.broker.heldMessages n).Pairwise fun g g' => g.tag < g'.tag
  order : h.broker.standing n = ((h.arrived n).map StoredMessage.copy).filter fun c =>
    c ∉ (h.departed n).map fun g => g.message.copy

structure ClosesInOrder (h : History) : Prop where
  restores : ∀ id c, h.bus.consumer? id = some c →
    Restores h.broker (h.perform (.close id)).1.broker c
  others : ∀ id k, k ≠ id → (h.perform (.close id)).1.bus.consumer? k = h.bus.consumer? k
  again : ∀ id, ((h.perform (.close id)).1.perform (.close id)).1.bus =
    (h.perform (.close id)).1.bus

theorem closesInOrder (htagged : Tagged h.broker) : h.ClosesInOrder := by
  refine ⟨fun id c hc => ?_, fun id k hk => ?_, fun id => close_close h.bus id⟩
  · have hrestored := restores_close htagged c
    have hbroker : (h.perform (.close id)).1.broker = (h.broker.close c).1 := by
      rw [broker_perform, next, perform_close hc]
      rfl
    rw [hbroker]
    exact hrestored
  · change (h.bus.perform (.close id)).1.consumer? k = h.bus.consumer? k
    cases hc : h.bus.consumer? id with
    | none => simp only [Bus.perform, hc]
    | some c =>
      have hid : k ≠ c.id := id_of_consumer? hc ▸ hk
      rw [perform_close hc]
      exact (consumer?_setConsumer _ _ k).trans (if_neg hid)

/-- What is asked of a run so that a queue keeps its order: whoever holds messages of it is alone,
at every moment, and no message comes back to it but by closing. -/
structure OneByOne (ops : List Op) (n : String) : Prop where
  whole : ∀ tag, .reject n tag true ∉ ops
  alone : ∀ past, past <+: ops → (run past).broker.OneHolder n

theorem OneByOne.of_prefix {ops past : List Op} {n : String} (h : OneByOne ops n)
    (hpast : past <+: ops) : OneByOne past n :=
  ⟨fun tag hmem => h.whole tag (hpast.subset hmem), fun older holder =>
    h.alone older (holder.trans hpast)⟩

theorem standing_sublist_arrived {ops : List Op} {n : String} (h : OneByOne ops n) :
    ((run ops).broker.standing n).Sublist (((run ops).arrived n).map StoredMessage.copy) := by
  induction ops using List.reverseRecOn with
  | nil => exact .refl _
  | append_singleton ops op ih =>
    have hpast : ops <+: ops ++ [op] := List.prefix_append ops [op]
    have hold := ih (h.of_prefix hpast)
    have hwhole : ∀ tag, op ≠ .reject n tag true := by
      rintro tag rfl
      exact h.whole tag (List.mem_append_right _ (.head _))
    have hstep := (perform_effect (run ops).bus op).standing_sublist (books_run ops).numbered
      (h.alone ops hpast) hwhole
    rw [run_concat, arrived_perform, List.map_append]
    exact hstep.trans (hold.append (.refl _))

theorem inArrivalOrder_run {ops : List Op} {n : String} (h : OneByOne ops n) :
    (run ops).InArrivalOrder n := by
  have hbooks := books_run ops
  have hascending : (((run ops).arrived n).map StoredMessage.copy).Pairwise (· < ·) :=
    List.pairwise_map.mpr (hbooks.ascending n)
  have hbalanced := hbooks.balanced n
  have hapart := hbalanced.nodup_iff.mpr hascending.nodup
  rw [List.nodup_append] at hapart
  obtain ⟨hcopies, -, hgone⟩ := hapart
  have hmem : ∀ c, c ∈ (run ops).broker.standing n ↔
      c ∈ ((run ops).arrived n).map StoredMessage.copy ∧
        c ∉ ((run ops).departed n).map fun g => g.message.copy := by
    intro c
    rw [((run ops).broker.standing_perm n).mem_iff, ← hbalanced.mem_iff, List.mem_append]
    constructor
    · exact fun hc => ⟨.inl hc, fun hleft => hgone c hc c hleft rfl⟩
    · exact fun ⟨hc, hstays⟩ => hc.resolve_right hstays
  have hstanding : ((run ops).broker.standing n).Nodup :=
    ((run ops).broker.standing_perm n).nodup_iff.mpr hcopies
  have hperm : ((run ops).broker.standing n).Perm
      ((((run ops).arrived n).map StoredMessage.copy).filter fun c =>
        c ∉ ((run ops).departed n).map fun g => g.message.copy) := by
    refine (List.perm_ext_iff_of_nodup hstanding (hascending.nodup.filter _)).mpr fun c => ?_
    rw [hmem, List.mem_filter, decide_eq_true_eq]
  refine ⟨hbooks.tagged.ascending n, List.Perm.eq_of_pairwise ?_
    (hascending.sublist (standing_sublist_arrived h)) (hascending.filter _) hperm⟩
  exact fun a b _ _ hab hba => absurd hab (Nat.lt_asymm hba)

/-- In every run, closing a consumer restores what it held and does nothing else. So a queue whose
messages are held by one consumer at a time keeps them in the order of their arrival, however often
consumers are closed and opened. -/
theorem closing_keeps_order (ops : List Op) : (run ops).ClosesInOrder ∧
    ∀ n, OneByOne ops n → ∀ past, past <+: ops → (run past).InArrivalOrder n := by
  have htagged := (books_run ops).tagged
  refine ⟨closesInOrder htagged, fun n h past hpast => ?_⟩
  exact inArrivalOrder_run (h.of_prefix hpast)

/-- Three messages for a queue that dead-letters into itself. One consumer takes two of them,
rejects the second for good and is closed twice; the next one takes them all and acknowledges the
second. -/
def reopeningRun : List Op :=
  let message (id : String) : Outbound := ⟨"orders", "order.created", [], id, "", true⟩
  [.declareEntity (.exchange ⟨"orders", .topic, true⟩),
    .declareEntity (.queue ⟨"work", true, some ⟨"orders", "order.again"⟩⟩),
    .declareEntity (.binding ⟨"work", "orders", "order.#"⟩),
    .send (message "m1"), .send (message "m2"), .send (message "m3"),
    .consume "work" 2, .poll 1, .poll 1, .reject "work" 2 false, .close 1, .close 1,
    .consume "work" 0, .poll 2, .poll 2, .poll 2, .ack "work" 4]

theorem closing_keeps_order_reopened : OneByOne reopeningRun "work" ∧
    (run reopeningRun).InArrivalOrder "work" ∧
    (run reopeningRun).broker.standing "work" = [1, 4] := by
  have halone : ∀ past ∈ reopeningRun.inits, (run past).broker.OneHolder "work" := by
    decide +kernel
  have hone : OneByOne reopeningRun "work" :=
    ⟨by simp [reopeningRun], fun past hpast => halone past ((List.mem_inits _ _).mpr hpast)⟩
  exact ⟨hone, (closing_keeps_order reopeningRun).2 "work" hone _ (List.prefix_refl _),
    by decide +kernel⟩

end History
end Bus
end OutcomeRelay
