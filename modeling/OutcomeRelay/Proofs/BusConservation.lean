import Mathlib.Data.List.Induction
import Mathlib.Data.List.Nodup
import OutcomeRelay.Proofs.BusAccounting

/-!
No message is lost or made up, whatever clients ask of a broker and in whatever order. Each copy
that came to a queue is at one place in it until the delivery that holds it is settled for good,
and says of itself what the send that it comes from said, or the last of its dead-letterings.
-/

namespace OutcomeRelay

namespace Broker

inductive Place where
  | ready (queue : String) (position : Nat)
  | held (queue : String) (tag : Nat)
  deriving DecidableEq, Repr

def Place.queue : Place → String
  | .ready q _ | .held q _ => q

def Has (b : Broker) (copy : Nat) : Place → Prop
  | .ready q i => ∃ m, (b.readyMessages q)[i]? = some m ∧ m.copy = copy
  | .held q t => ∃ h ∈ b.heldMessages q, h.tag = t ∧ h.message.copy = copy

variable {b : Broker} {c : Nat} {n : String}

theorem Has.mem_copies {p : Place} (h : b.Has c p) : c ∈ b.copies p.queue := by
  rw [copies_eq]
  cases p with
  | ready q i =>
    obtain ⟨m, hm, rfl⟩ := h
    exact List.mem_append_left _ (List.mem_map_of_mem (List.mem_of_getElem? hm))
  | held q t =>
    obtain ⟨h, hh, -, rfl⟩ := h
    exact List.mem_append_right _ (List.mem_map.mpr ⟨h, hh, rfl⟩)

theorem exists_has_of_mem_copies (h : c ∈ b.copies n) : ∃ p, b.Has c p ∧ p.queue = n := by
  rw [copies_eq] at h
  rcases List.mem_append.mp h with h | h
  · obtain ⟨m, hm, hc⟩ := List.mem_map.mp h
    obtain ⟨i, hi⟩ := List.mem_iff_getElem?.mp hm
    exact ⟨.ready n i, ⟨m, hi, hc⟩, rfl⟩
  · obtain ⟨g, hg, hc⟩ := List.mem_map.mp h
    exact ⟨.held n g.tag, ⟨g, hg, rfl, hc⟩, rfl⟩

theorem Has.unique (hnodup : (b.copies n).Nodup) {p p' : Place} (h : b.Has c p) (h' : b.Has c p')
    (hp : p.queue = n) (hp' : p'.queue = n) : p = p' := by
  rw [copies_eq, List.nodup_append] at hnodup
  obtain ⟨hready, hheld, hapart⟩ := hnodup
  have hmixed : ∀ i t, b.Has c (.ready n i) → ¬ b.Has c (.held n t) := by
    rintro i t ⟨m, hm, hmc⟩ ⟨g, hg, -, hgc⟩
    exact hapart c (hmc ▸ List.mem_map_of_mem (List.mem_of_getElem? hm)) c
      (List.mem_map.mpr ⟨g, hg, hgc⟩) rfl
  cases p with
  | ready q i =>
    obtain rfl : q = n := hp
    cases p' with
    | held q' t =>
      obtain rfl : q' = q := hp'
      exact absurd h' (hmixed i t h)
    | ready q' j =>
      obtain rfl : q' = q := hp'
      obtain ⟨m, hm, hmc⟩ := h
      obtain ⟨m', hm', hmc'⟩ := h'
      have hi : i < ((b.readyMessages q').map StoredMessage.copy).length := by
        rw [List.length_map]
        exact (List.getElem?_eq_some_iff.mp hm).1
      have hcopy : ((b.readyMessages q').map StoredMessage.copy)[i]? =
          ((b.readyMessages q').map StoredMessage.copy)[j]? := by
        rw [List.getElem?_map, List.getElem?_map, hm, hm', Option.map_some, Option.map_some, hmc,
          hmc']
      rw [(List.getElem?_inj hi hready).mp hcopy]
  | held q t =>
    obtain rfl : q = n := hp
    cases p' with
    | ready q' j =>
      obtain rfl : q' = q := hp'
      exact absurd h (hmixed j t h')
    | held q' t' =>
      obtain rfl : q' = q := hp'
      obtain ⟨g, hg, rfl, hgc⟩ := h
      obtain ⟨g', hg', rfl, hgc'⟩ := h'
      rw [List.inj_on_of_nodup_map hheld hg hg' (hgc.trans hgc'.symm)]

end Broker

namespace Bus

open Broker

structure Entry.Sound (e : Entry) : Prop where
  tagged : Tagged e.before
  numbered : Numbered e.before
  effect : ∃ s : Bus, s.broker = e.before ∧ Effect s e.op e.reply e.after

namespace Entry.Sound

variable {e : Entry}

theorem elim {P : Entry → Prop} (h : e.Sound)
    (effect : ∀ s op reply b, Tagged s.broker → Numbered s.broker → Effect s op reply b →
      P ⟨s.broker, op, reply, b⟩) : P e := by
  obtain ⟨s, hs, heffect⟩ := h.effect
  obtain ⟨before, op, reply, after⟩ := e
  subst hs
  exact effect s op reply after h.tagged h.numbered heffect

theorem balances (h : e.Sound) (n : String) : e.Balances n :=
  h.elim (P := fun e => e.Balances n) fun _ _ _ _ htagged hnumbered heffect =>
    heffect.balances htagged hnumbered n

theorem orderly (h : e.Sound) : e.Orderly :=
  h.elim (P := Entry.Orderly) fun _ _ _ _ _ hnumbered heffect => heffect.orderly hnumbered

theorem origin (h : e.Sound) {n : String} {x : StoredMessage} (hx : x ∈ e.arrivals n) :
    ∃ m, e.Source m ∧ x = { m with copy := x.copy } :=
  h.elim (P := fun e => x ∈ e.arrivals n → ∃ m, e.Source m ∧ x = { m with copy := x.copy })
    (fun _ _ _ _ _ hnumbered heffect => heffect.origin hnumbered) hx

theorem kept (h : e.Sound) {n : String} {x : StoredMessage} (hx : x ∈ e.after.messages n) :
    e.before.Kept n x ∨ x ∈ e.arrivals n :=
  h.elim (P := fun e => x ∈ e.after.messages n → e.before.Kept n x ∨ x ∈ e.arrivals n)
    (fun _ _ _ _ _ _ heffect => heffect.kept) hx

theorem deadLettered (h : e.Sound) {queue : String} {g : HeldMessage} {t : DeadLetterTarget}
    (hop : e.op = .reject queue g.tag false) (hreply : e.reply = .done)
    (holds : g ∈ e.before.heldMessages queue) (leads : e.before.deadLetterTarget? queue = some t)
    (n : String) :
    (e.arrivals n).length = (e.before.knownTargets t.exchange t.routingKey).count n ∧
      ∀ x ∈ e.arrivals n, x = { deadAt g.message t with copy := x.copy } := by
  obtain ⟨s, hs, heffect⟩ := h.effect
  obtain ⟨before, op, reply, after⟩ := e
  dsimp only at hop hreply
  subst hs hop hreply
  exact heffect.deadLettered h.tagged h.numbered holds leads n

theorem settled (h : e.Sound) {queue : String} {tag : Nat} (hs : e.settled? = some (queue, tag)) :
    ∃ g ∈ e.before.heldMessages queue, g.tag = tag := by
  obtain ⟨s, hbroker, heffect⟩ := h.effect
  obtain ⟨before, op, reply, after⟩ := e
  subst hbroker
  cases heffect with
  | quiet silent => rw [settled?_of_silent silent] at hs; cases hs
  | posted | taken | requeued | closed => cases hs
  | acked holds | died holds =>
    cases hs
    exact ⟨_, holds, rfl⟩

theorem departures_eq (h : e.Sound) {queue : String} {g : HeldMessage}
    (hs : e.settled? = some (queue, g.tag)) (hg : g ∈ e.before.heldMessages queue) :
    e.departures queue = [g] := by
  rw [departures_of_some hs, if_pos rfl, h.tagged.filter_tag hg]

theorem length_departures (h : e.Sound) (n : String) :
    (e.departures n).length = if e.settles n then 1 else 0 := by
  unfold settles
  cases hs : e.settled? with
  | none => rw [departures_of_none hs]; rfl
  | some d =>
    obtain ⟨queue, tag⟩ := d
    obtain ⟨g, hg, rfl⟩ := h.settled hs
    by_cases hn : queue = n
    · subst hn
      rw [h.departures_eq hs hg]
      simp
    · rw [departures_of_some hs, if_neg hn]
      simp [hn]

end Entry.Sound

theorem Entry.mem_departures {e : Entry} {n : String} {g : HeldMessage} (hg : g ∈ e.departures n) :
    e.settled? = some (n, g.tag) ∧ g ∈ e.before.heldMessages n := by
  cases hs : e.settled? with
  | none => rw [Entry.departures_of_none hs] at hg; cases hg
  | some d =>
    obtain ⟨queue, tag⟩ := d
    rw [Entry.departures_of_some hs] at hg
    split at hg
    · next hn =>
      obtain ⟨hmem, htag⟩ := List.mem_filter.mp hg
      rw [hn, beq_iff_eq.mp htag]
      exact ⟨rfl, hmem⟩
    · cases hg

namespace History

variable {h : History}

theorem run_concat (ops : List Op) (op : Op) : run (ops ++ [op]) = ((run ops).perform op).1 :=
  List.foldl_concat ..

theorem run_induction {P : History → Prop} (init : P {})
    (step : ∀ h op, P h → P (h.perform op).1) (ops : List Op) : P (run ops) := by
  induction ops using List.reverseRecOn with
  | nil => exact init
  | append_singleton ops op ih =>
    rw [run_concat]
    exact step _ op ih

def next (h : History) (op : Op) : Entry :=
  ⟨h.broker, op, (h.bus.perform op).2, (h.bus.perform op).1.broker⟩

theorem entries_perform (h : History) (op : Op) :
    (h.perform op).1.entries = h.entries ++ [h.next op] := rfl

theorem broker_perform (h : History) (op : Op) : (h.perform op).1.broker = (h.next op).after := rfl

theorem arrived_perform (h : History) (op : Op) (n : String) :
    (h.perform op).1.arrived n = h.arrived n ++ (h.next op).arrivals n := by
  simp [arrived, entries_perform]

theorem departed_perform (h : History) (op : Op) (n : String) :
    (h.perform op).1.departed n = h.departed n ++ (h.next op).departures n := by
  simp [departed, entries_perform]

structure Books (h : History) : Prop where
  tagged : Tagged h.broker
  balanced : ∀ n, (h.broker.copies n ++ (h.departed n).map fun g => g.message.copy).Perm
    ((h.arrived n).map StoredMessage.copy)
  settled : ∀ n, h.settlements n = (h.departed n).length
  bounded : ∀ n, ∀ m ∈ h.arrived n, m.copy ≤ h.broker.lastCopy
  ascending : ∀ n, (h.arrived n).Pairwise fun x y => x.copy < y.copy
  apart : ∀ n n', ∀ x ∈ h.arrived n, ∀ y ∈ h.arrived n', x.copy = y.copy → n = n'
  sound : ∀ e ∈ h.entries, e.Sound
  last : ∀ e ∈ h.entries, e.after.lastCopy ≤ h.broker.lastCopy
  chain : h.entries.Pairwise fun e e' => e.after.lastCopy ≤ e'.before.lastCopy

namespace Books

theorem mem_arrived (hb : Books h) {c : Nat} {n : String} (hc : c ∈ h.broker.copies n) :
    ∃ m ∈ h.arrived n, m.copy = c :=
  List.mem_map.mp ((hb.balanced n).subset (List.mem_append_left _ hc))

theorem numbered (hb : Books h) : Numbered h.broker := by
  intro n m hm
  obtain ⟨x, hx, hcopy⟩ := hb.mem_arrived (List.mem_map_of_mem hm)
  exact hcopy ▸ hb.bounded n x hx

theorem sound_next (hb : Books h) (op : Op) : (h.next op).Sound :=
  ⟨hb.tagged, hb.numbered, h.bus, rfl, perform_effect h.bus op⟩

theorem init : Books {} where
  tagged := tagged_empty
  balanced _ := .refl _
  settled _ := rfl
  bounded := by simp [arrived]
  ascending := by simp [arrived]
  apart := by simp [arrived]
  sound := by simp
  last := by simp
  chain := .nil

theorem balanced_perform (hb : Books h) (op : Op) (n : String) :
    ((h.perform op).1.broker.copies n ++
        ((h.perform op).1.departed n).map fun g => g.message.copy).Perm
      (((h.perform op).1.arrived n).map StoredMessage.copy) := by
  have hstep := (hb.sound_next op).balances n
  have hbefore := hb.balanced n
  rw [Entry.Balances, show (h.next op).before = h.broker from rfl, List.perm_iff_count] at hstep
  rw [List.perm_iff_count] at hbefore
  rw [departed_perform, arrived_perform, broker_perform, List.perm_iff_count]
  intro c
  have hstep := hstep c
  have hbefore := hbefore c
  simp only [List.map_append, List.count_append] at *
  omega

theorem perform (hb : Books h) (op : Op) : Books (h.perform op).1 := by
  have hsound := hb.sound_next op
  have horderly := hsound.orderly
  have hlast : h.broker.lastCopy ≤ (h.next op).after.lastCopy := horderly.lastCopy
  -- the numbers of copies only grow, so that what arrives now is after all that arrived before
  have hold : ∀ n n', ∀ x ∈ h.arrived n, ∀ y ∈ (h.next op).arrivals n', x.copy < y.copy :=
    fun n n' x hx y hy => Nat.lt_of_le_of_lt (hb.bounded n x hx) (horderly.fresh n' y hy).1
  refine ⟨(perform_effect h.bus op).tagged hb.tagged, hb.balanced_perform op, fun n => ?_,
    fun n m hm => ?_, fun n => ?_, fun n n' x hx y hy hxy => ?_, fun e he => ?_, fun e he => ?_, ?_⟩
  · rw [departed_perform, List.length_append, ← hb.settled, hsound.length_departures, settlements,
      entries_perform, List.countP_append, List.countP_singleton]
    rfl
  · rw [arrived_perform] at hm
    rcases List.mem_append.mp hm with hm | hm
    · exact Nat.le_trans (hb.bounded n m hm) hlast
    · exact (horderly.fresh n m hm).2
  · rw [arrived_perform]
    exact List.pairwise_append.mpr ⟨hb.ascending n, horderly.ascending n, hold n n⟩
  · rw [arrived_perform] at hx hy
    rcases List.mem_append.mp hx with hx | hx <;> rcases List.mem_append.mp hy with hy | hy
    · exact hb.apart n n' x hx y hy hxy
    · exact absurd hxy (Nat.ne_of_lt (hold n n' x hx y hy))
    · exact absurd hxy.symm (Nat.ne_of_lt (hold n' n y hy x hx))
    · exact horderly.apart n n' x hx y hy hxy
  · rcases List.mem_append.mp he with he | he
    · exact hb.sound e he
    · rw [List.mem_singleton.mp he]
      exact hsound
  · rcases List.mem_append.mp he with he | he
    · exact Nat.le_trans (hb.last e he) hlast
    · rw [List.mem_singleton.mp he]
      exact Nat.le_refl _
  · refine List.pairwise_append.mpr ⟨hb.chain, List.pairwise_singleton _ _, fun e he e' he' => ?_⟩
    rw [List.mem_singleton.mp he']
    exact hb.last e he

end Books

theorem books_run (ops : List Op) : Books (run ops) :=
  run_induction Books.init (fun _ op hb => hb.perform op) ops

end History

/-- The send that a copy comes from and its dead-letterings since, the latest first. -/
inductive Lineage (entries : List Entry) : Nat → Outbound → List DeadLetterTarget → Prop where
  | sent {c : Nat} {e : Entry} {o : Outbound} {n : String} {m : StoredMessage}
      (logged : e ∈ entries) (op : e.op = .send o) (arrived : m ∈ e.arrivals n)
      (copy : m.copy = c) :
      Lineage entries c o []
  | died {c : Nat} {e : Entry} {o : Outbound} {n queue : String} {m : StoredMessage}
      {h : HeldMessage} {t : DeadLetterTarget} {path : List DeadLetterTarget} (logged : e ∈ entries)
      (op : e.op = .reject queue h.tag false) (holds : h ∈ e.before.heldMessages queue)
      (leads : e.before.deadLetterTarget? queue = some t) (arrived : m ∈ e.arrivals n)
      (copy : m.copy = c) (older : Lineage entries h.message.copy o path) :
      Lineage entries c o (t :: path)

theorem Lineage.mono {entries entries' : List Entry} (hsub : entries ⊆ entries') {c : Nat}
    {o : Outbound} {path : List DeadLetterTarget} (h : Lineage entries c o path) :
    Lineage entries' c o path := by
  induction h with
  | sent logged op arrived copy => exact .sent (hsub logged) op arrived copy
  | died logged op holds leads arrived copy _ ih =>
    exact .died (hsub logged) op holds leads arrived copy ih

structure Descends (m : StoredMessage) (o : Outbound) (path : List DeadLetterTarget) : Prop where
  body : m.body = o.body
  messageId : m.messageId = some o.messageId
  exchange : m.exchange = (path.head?.map DeadLetterTarget.exchange).getD o.exchange
  routingKey : m.routingKey = (path.head?.map DeadLetterTarget.routingKey).getD o.routingKey
  deathCount : m.deathCount = path.length

namespace History

variable {h : History}

theorem Books.eq_of_arrivals (hb : Books h) {e e' : Entry} (he : e ∈ h.entries)
    (he' : e' ∈ h.entries) {n n' : String} {m m' : StoredMessage} (hm : m ∈ e.arrivals n)
    (hm' : m' ∈ e'.arrivals n') (hcopy : m.copy = m'.copy) : e = e' := by
  have hflip : h.entries.Pairwise (flip fun e e' =>
      e = e' ∨ e.after.lastCopy ≤ e'.before.lastCopy ∨ e'.after.lastCopy ≤ e.before.lastCopy) :=
    hb.chain.imp fun hle => .inr (.inr hle)
  -- of two entries one came first, and gave its numbers before the other
  have horder := List.Pairwise.forall_of_forall_of_flip (fun x _ => .inl rfl)
    (hb.chain.imp fun hle => .inr (.inl hle)) hflip he he'
  have hfresh := (hb.sound e he).orderly.fresh n m hm
  have hfresh' := (hb.sound e' he').orderly.fresh n' m' hm'
  rcases horder with heq | hle | hle
  · exact heq
  · omega
  · omega

theorem Books.lineage_unique (hb : Books h) {c : Nat} {o o' : Outbound}
    {path path' : List DeadLetterTarget} (hl : Lineage h.entries c o path)
    (hl' : Lineage h.entries c o' path') : o = o' ∧ path = path' := by
  -- a copy came with one entry only, so that both begin with the same
  induction hl generalizing o' path' with
  | sent logged op arrived copy =>
    cases hl' with
    | sent logged' op' arrived' copy' =>
      obtain rfl := hb.eq_of_arrivals logged logged' arrived arrived' (copy.trans copy'.symm)
      rw [op] at op'
      cases op'
      exact ⟨rfl, rfl⟩
    | died logged' op' holds' leads' arrived' copy' =>
      obtain rfl := hb.eq_of_arrivals logged logged' arrived arrived' (copy.trans copy'.symm)
      rw [op] at op'
      cases op'
  | died logged op holds leads arrived copy older ih =>
    cases hl' with
    | sent logged' op' arrived' copy' =>
      obtain rfl := hb.eq_of_arrivals logged logged' arrived arrived' (copy.trans copy'.symm)
      rw [op] at op'
      cases op'
    | died logged' op' holds' leads' arrived' copy' older' =>
      obtain rfl := hb.eq_of_arrivals logged logged' arrived arrived' (copy.trans copy'.symm)
      rw [op] at op'
      injection op' with hqueue htag
      subst hqueue
      obtain rfl := (hb.sound _ logged).tagged.eq_of_tag holds holds' htag
      rw [leads] at leads'
      cases leads'
      obtain ⟨rfl, rfl⟩ := ih older'
      exact ⟨rfl, rfl⟩

def Traced (h : History) (m : StoredMessage) : Prop :=
  ∃ o path, Lineage h.entries m.copy o path ∧ Descends m o path

theorem Traced.perform {m : StoredMessage} (hm : h.Traced m) (op : Op) :
    (h.perform op).1.Traced m := by
  obtain ⟨o, path, hline, hdesc⟩ := hm
  exact ⟨o, path, hline.mono (List.subset_append_left _ _), hdesc⟩

theorem Traced.redelivered {m : StoredMessage} (hm : h.Traced m) (r : Bool) :
    h.Traced { m with redelivered := r } := by
  obtain ⟨o, path, hline, hdesc⟩ := hm
  exact ⟨o, path, hline, ⟨hdesc.body, hdesc.messageId, hdesc.exchange, hdesc.routingKey,
    hdesc.deathCount⟩⟩

theorem Books.traced_arrivals (hb : Books h) (hold : ∀ n, ∀ m ∈ h.broker.messages n, h.Traced m)
    (op : Op) {n : String} {x : StoredMessage} (hx : x ∈ (h.next op).arrivals n) :
    (h.perform op).1.Traced x := by
  have hlogged : h.next op ∈ (h.perform op).1.entries := by
    rw [entries_perform]
    exact List.mem_append_right _ (.head _)
  obtain ⟨m, hsource, hxm⟩ := (hb.sound_next op).origin hx
  cases hsource with
  | @sent o hop =>
    refine ⟨o, [], .sent hlogged hop hx rfl, ?_⟩
    rw [hxm]
    exact ⟨rfl, rfl, rfl, rfl, rfl⟩
  | @died queue g t hop holds leads =>
    obtain ⟨o, path, hline, hdesc⟩ := (hold queue g.message (mem_messages_of_held holds)).perform op
    refine ⟨o, t :: path, .died hlogged hop holds leads hx rfl hline, ?_⟩
    rw [hxm]
    exact ⟨hdesc.body, hdesc.messageId, rfl, rfl, congrArg Nat.succ hdesc.deathCount⟩

theorem traced_run (ops : List Op) :
    (∀ n, ∀ m ∈ (run ops).arrived n, (run ops).Traced m) ∧
      ∀ n, ∀ m ∈ (run ops).broker.messages n, (run ops).Traced m := by
  refine (run_induction (P := fun h => Books h ∧ (∀ n, ∀ m ∈ h.arrived n, h.Traced m) ∧
    ∀ n, ∀ m ∈ h.broker.messages n, h.Traced m) ⟨Books.init, ?_, ?_⟩ ?_ ops).2
  · intro n m hm
    exact absurd hm List.not_mem_nil
  · intro n m hm
    exact absurd hm List.not_mem_nil
  · rintro h op ⟨hb, harrived, hstored⟩
    refine ⟨hb.perform op, fun n m hm => ?_, fun n m hm => ?_⟩
    · rw [arrived_perform] at hm
      rcases List.mem_append.mp hm with hm | hm
      · exact (harrived n m hm).perform op
      · exact hb.traced_arrivals hstored op hm
    · rcases (hb.sound_next op).kept hm with ⟨y, hy, heq⟩ | hm
      · rw [heq]
        exact ((hstored n y hy).perform op).redelivered _
      · exact hb.traced_arrivals hstored op hm

def Gone (h : History) (copy : Nat) : Prop :=
  ∃ e ∈ h.entries, ∃ queue tag, e.settled? = some (queue, tag) ∧ e.before.Has copy (.held queue tag)

theorem Books.mem_departed (hb : Books h) {e : Entry} (he : e ∈ h.entries) {n : String}
    {g : HeldMessage} (hs : e.settled? = some (n, g.tag)) (hg : g ∈ e.before.heldMessages n) :
    g ∈ h.departed n := by
  refine List.mem_flatMap.mpr ⟨e, he, ?_⟩
  rw [(hb.sound e he).departures_eq hs hg]
  exact .head _

theorem Books.gone_iff (hb : Books h) {c : Nat} :
    h.Gone c ↔ ∃ n, c ∈ (h.departed n).map fun g => g.message.copy := by
  constructor
  · rintro ⟨e, he, queue, tag, hsettled, g, hg, rfl, hcopy⟩
    exact ⟨queue, List.mem_map.mpr ⟨g, hb.mem_departed he hsettled hg, hcopy⟩⟩
  · rintro ⟨n, hc⟩
    obtain ⟨g, hg, hcopy⟩ := List.mem_map.mp hc
    obtain ⟨e, he, hge⟩ := List.mem_flatMap.mp hg
    obtain ⟨hsettled, hheld⟩ := Entry.mem_departures hge
    exact ⟨e, he, n, g.tag, hsettled, g, hheld, rfl, hcopy⟩

theorem Books.nodup (hb : Books h) (n : String) :
    (h.broker.copies n ++ (h.departed n).map fun g => g.message.copy).Nodup := by
  rw [(hb.balanced n).nodup_iff]
  exact List.pairwise_map.mpr ((hb.ascending n).imp Nat.ne_of_lt)

theorem Books.queue_eq (hb : Books h) {n n' : String} {m : StoredMessage} (hm : m ∈ h.arrived n)
    (hc : m.copy ∈ h.broker.copies n' ++ (h.departed n').map fun g => g.message.copy) : n' = n := by
  obtain ⟨x, hx, hcopy⟩ := List.mem_map.mp ((hb.balanced n').subset hc)
  exact hb.apart n' n x hx m hm hcopy

theorem Books.whereabouts (hb : Books h) {n : String} {m : StoredMessage} (hm : m ∈ h.arrived n) :
    ((∃ p, h.broker.Has m.copy p ∧ p.queue = n ∧ ∀ p', h.broker.Has m.copy p' → p' = p) ∧
      ¬ h.Gone m.copy) ∨
    ((∀ p, ¬ h.broker.Has m.copy p) ∧ h.Gone m.copy) := by
  have hqueue : ∀ p, h.broker.Has m.copy p → p.queue = n := fun p hp =>
    hb.queue_eq hm (List.mem_append_left _ hp.mem_copies)
  obtain ⟨hcopies, -, hapart⟩ := List.nodup_append.mp (hb.nodup n)
  rcases List.mem_append.mp ((hb.balanced n).symm.subset (List.mem_map_of_mem hm)) with hc | hc
  · left
    obtain ⟨p, hp, hpn⟩ := exists_has_of_mem_copies hc
    refine ⟨⟨p, hp, hpn, fun p' hp' => hp'.unique hcopies hp (hqueue p' hp') hpn⟩, fun hgone => ?_⟩
    obtain ⟨n', hc'⟩ := hb.gone_iff.mp hgone
    obtain rfl := hb.queue_eq hm (List.mem_append_right _ hc')
    exact hapart _ hc _ hc' rfl
  · right
    refine ⟨fun p hp => ?_, hb.gone_iff.mpr ⟨n, hc⟩⟩
    exact hapart _ (hqueue p hp ▸ hp.mem_copies) _ hc rfl

theorem length_copies (b : Broker) (n : String) : (b.copies n).length = (b.depth? n).getD 0 := by
  rw [copies_eq, List.length_append, List.length_map, List.length_map, readyMessages, heldMessages,
    depth?]
  cases b.queue? n <;> rfl

structure Conserved (h : History) : Prop where
  whereabouts : ∀ n, ∀ m ∈ h.arrived n,
    ((∃ p, h.broker.Has m.copy p ∧ p.queue = n ∧ ∀ p', h.broker.Has m.copy p' → p' = p) ∧
      ¬ h.Gone m.copy) ∨
    ((∀ p, ¬ h.broker.Has m.copy p) ∧ h.Gone m.copy)
  known : ∀ c p, h.broker.Has c p → ∃ m ∈ h.arrived p.queue, m.copy = c
  depth : ∀ n, (h.broker.depth? n).getD 0 + h.settlements n = (h.arrived n).length
  descent : ∀ n m, m ∈ h.arrived n ∨ m ∈ h.broker.messages n →
    ∃ o path, Lineage h.entries m.copy o path ∧ Descends m o path
  lineage : ∀ c o o' path path', Lineage h.entries c o path → Lineage h.entries c o' path' →
    o = o' ∧ path = path'

theorem conservation (ops : List Op) : Conserved (run ops) := by
  have hb := books_run ops
  obtain ⟨harrived, hstored⟩ := traced_run ops
  refine ⟨fun n m hm => hb.whereabouts hm, fun c p hp => hb.mem_arrived hp.mem_copies, fun n => ?_,
    fun n m hm => hm.elim (harrived n m) (hstored n m), fun c o o' path path' => hb.lineage_unique⟩
  have hlength := (hb.balanced n).length_eq
  rw [List.length_append, List.length_map, List.length_map, length_copies] at hlength
  rw [hb.settled, hlength]

end History
end Bus
end OutcomeRelay
