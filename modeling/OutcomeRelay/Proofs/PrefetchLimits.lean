import OutcomeRelay.Proofs.BusDeliveries
import OutcomeRelay.Proofs.ParkedConsumers

/-!
Prefetch limits. A consumer with a limit never holds more messages than it allows, and below its
limit it is never kept from the first message that waits: what a poll gives is decided by the queue
and by what the consumer itself holds, whatever the other consumers of the queue do.
-/

namespace OutcomeRelay

namespace Broker

def outstanding (b : Broker) (queue : String) (consumer : Nat) : Nat :=
  ((b.heldMessages queue).filter fun g => g.consumer == consumer).length

/-- A consumer may hold one more message of its queue. A limit of zero is none. -/
def HasRoom (b : Broker) (queue : String) (consumer prefetch : Nat) : Prop :=
  prefetch = 0 ∨ b.outstanding queue consumer < prefetch

variable {b b' : Broker} {n : String} {k : Nat}

theorem outstanding_of_some {q : Queue} (h : b.queue? n = some q) (k : Nat) :
    b.outstanding n k = q.outstanding k := by
  rw [outstanding, heldMessages_of_some h, Queue.outstanding]

theorem outstanding_le_of_sublist (h : (b'.heldMessages n).Sublist (b.heldMessages n)) (k : Nat) :
    b'.outstanding n k ≤ b.outstanding n k :=
  (h.filter _).length_le

theorem blocks_iff_not_hasRoom {q : Queue} (h : b.queue? n = some q) (k prefetch : Nat) :
    q.Blocks k prefetch ↔ b.readyMessages n = [] ∨ ¬ b.HasRoom n k prefetch := by
  have hready : b.readyMessages n = q.ready := readyMessages_of_some h
  have hfull : ¬ b.HasRoom n k prefetch ↔ 0 < prefetch ∧ prefetch ≤ q.outstanding k := by
    rw [HasRoom, outstanding_of_some h, not_or, Nat.not_lt, Nat.pos_iff_ne_zero]
  rw [hready, hfull, Queue.Blocks]

end Broker

namespace Bus

open Broker

variable {s : Bus} {op : Op} {reply : Reply} {b : Broker} {n : String} {k : Nat}

theorem Effect.outstanding_cases (h : Effect s op reply b) (n : String) (k : Nat) :
    b.outstanding n k ≤ s.broker.outstanding n k ∨
    (op = .poll k ∧ s.queueOf? k = some n ∧ (∃ d, reply = .polled (.delivered d)) ∧
      b.outstanding n k = s.broker.outstanding n k + 1) := by
  have kept : (b.heldMessages n).Sublist (s.broker.heldMessages n) →
      b.outstanding n k ≤ s.broker.outstanding n k := fun hsub => outstanding_le_of_sublist hsub k
  cases h with
  | quiet _ same => exact .inl (kept (same.messages.held n ▸ List.Sublist.refl _))
  | posted put => exact .inl (kept (put.held n ▸ List.Sublist.refl _))
  | acked holds change | requeued holds change | closed found change =>
    exact .inl (kept (change.held_sublist List.filter_sublist n))
  | died holds change put =>
    have hsub := change.held_sublist List.filter_sublist n
    exact .inl (kept (put.held n ▸ hsub))
  | @taken id c m rest b found ready change =>
    obtain rfl := id_of_consumer? found
    have hheld := change.held n
    by_cases hn : n = c.queue
    · subst hn
      rw [if_pos rfl] at hheld
      by_cases hk : k = c.id
      · subst hk
        refine .inr ⟨rfl, by rw [queueOf?, found, Option.map_some], ⟨_, rfl⟩, ?_⟩
        simp [outstanding, hheld]
      · left
        simp [outstanding, hheld, Ne.symm hk]
    · rw [if_neg hn] at hheld
      exact .inl (kept (hheld ▸ List.Sublist.refl _))

theorem poll_cases_of_open {c : Consumer} (hc : s.consumer? k = some c)
    (hopen : c.cancelled = false) (hr : s.broker.reachable = true) (hknown : (s.broker.queue? c.queue).isSome) :
    ((s.broker.readyMessages c.queue = [] ∨ ¬ s.broker.HasRoom c.queue k c.prefetch) ∧
      ∃ epoch, (s.perform (.poll k)).2 = .polled (.pending epoch)) ∨
    (s.broker.HasRoom c.queue k c.prefetch ∧ ∃ m rest, s.broker.readyMessages c.queue = m :: rest ∧
      (s.perform (.poll k)).2 =
        .polled (.delivered (delivery c.queue (s.broker.lastTag + 1) m)) ∧
      Changed c.queue rest
        (s.broker.heldMessages c.queue ++ [⟨s.broker.lastTag + 1, k, m⟩])
        { s.broker with lastTag := s.broker.lastTag + 1 } (s.perform (.poll k)).1.broker) := by
  obtain rfl := id_of_consumer? hc
  obtain ⟨q, hq⟩ := Option.isSome_iff_exists.mp hknown
  have hpoll := poll_eq_tryTake hopen hr
  have hblocks := blocks_iff_not_hasRoom hq c.id c.prefetch
  simp only [perform, hc, hpoll]
  rcases tryTake_cases hq with ⟨hblocked, htry⟩ | ⟨hfree, m, rest, hready, htry, hchange⟩
  · refine .inl ⟨hblocks.mp hblocked, s.broker.epoch c.queue, ?_⟩
    rw [htry]
    rfl
  · have hroom : s.broker.HasRoom c.queue c.id c.prefetch := by
      by_contra hfull
      exact hfree (hblocks.mpr (.inr hfull))
    refine .inr ⟨hroom, m, rest, (readyMessages_of_some hq).trans hready, ?_, ?_⟩
    · rw [htry]
      rfl
    · rw [heldMessages_of_some hq]
      exact hchange

structure Limited (s : Bus) : Prop where
  known : ∀ id n prefetch, s.seat? id = some (n, prefetch) → (s.broker.queue? n).isSome
  bounded : ∀ id n prefetch, s.seat? id = some (n, prefetch) → 0 < prefetch →
    s.broker.outstanding n id ≤ prefetch

theorem consumer_of_seat? {prefetch : Nat} (h : s.seat? k = some (n, prefetch)) :
    ∃ c, s.consumer? k = some c ∧ c.queue = n ∧ c.prefetch = prefetch := by
  obtain ⟨c, hc, heq⟩ := Option.map_eq_some_iff.mp h
  cases heq
  exact ⟨c, hc, rfl, rfl⟩

theorem Registered.outstanding_of_unseated (hs : Registered s) (h : s.seat? k = none) (n : String) :
    s.broker.outstanding n k = 0 := by
  have hnone : s.queueOf? k = none := by
    rw [seat?, Option.map_eq_none_iff] at h
    rw [queueOf?, h, Option.map_none]
  rw [outstanding, List.length_eq_zero_iff, List.filter_eq_nil_iff]
  intro g hg hk
  have hqueue := hs.holders n g hg
  rw [beq_iff_eq.mp hk, hnone] at hqueue
  cases hqueue

theorem hasRoom_of_delivered {d : Delivery} {prefetch : Nat}
    (hseat : s.seat? k = some (n, prefetch)) (hknown : (s.broker.queue? n).isSome)
    (hreply : (s.perform (.poll k)).2 = .polled (.delivered d)) :
    s.broker.HasRoom n k prefetch := by
  obtain ⟨c, hc, rfl, rfl⟩ := consumer_of_seat? hseat
  have hpolled : (s.perform (.poll k)).2 = .polled (s.broker.poll c).2.2 := by
    simp only [perform, hc]
  cases hover : c.cancelled with
  | true =>
    rw [hpolled, poll_of_over hover] at hreply
    cases hreply
  | false =>
    cases hr : s.broker.reachable with
    | false =>
      rw [hpolled, poll_of_lost hover hr] at hreply
      cases hreply
    | true =>
      rcases poll_cases_of_open hc hover hr hknown with ⟨-, epoch, hwaits⟩ | ⟨hroom, -⟩
      · rw [hwaits] at hreply
        cases hreply
      · exact hroom

theorem Limited.perform (hl : Limited s) (hs : Registered s) (op : Op) :
    Limited (s.perform op).1 := by
  have heffect := perform_effect s op
  have hseats := seats_perform s op
  constructor
  · intro id n prefetch hseat
    rcases hseats id with hsame | ⟨queue, limit, -, hnew, hknown⟩
    · have hold := hl.known id n prefetch (hsame ▸ hseat)
      rw [← isSome_spec?, Option.isSome_iff_exists] at hold ⊢
      exact hold.imp fun spec hspec => heffect.graph.specs n spec hspec
    · obtain ⟨rfl, rfl⟩ := Prod.mk.inj (Option.some.inj (hnew.symm.trans hseat))
      exact hknown
  · intro id n prefetch hseat hlimit
    have hcases := heffect.outstanding_cases n id
    rcases hseats id with hsame | ⟨queue, limit, hnone, hnew, -⟩
    · have hold : s.seat? id = some (n, prefetch) := hsame ▸ hseat
      have hbound := hl.bounded id n prefetch hold hlimit
      rcases hcases with hle | ⟨rfl, -, ⟨d, hreply⟩, hone⟩
      · exact Nat.le_trans hle hbound
      · have hroom := hasRoom_of_delivered hold (hl.known id n prefetch hold) hreply
        rcases hroom with hzero | hless
        · omega
        · omega
    · -- the consumer is new with this operation, and no poll of it came before
      have hnothing := hs.outstanding_of_unseated hnone n
      rcases hcases with hle | ⟨-, hqueue, -⟩
      · omega
      · rw [seat?, Option.map_eq_none_iff] at hnone
        rw [queueOf?, hnone] at hqueue
        cases hqueue

namespace History

variable {h : History} {id : Nat} {queue : String} {prefetch : Nat}

def OpenedOn (h : History) (id : Nat) (queue : String) (prefetch : Nat) : Prop :=
  ∃ e ∈ h.entries, e.op = .consume queue prefetch ∧ e.reply = .opened id

theorem seat?_of_opened {s : Bus} (hs : Registered s)
    (hreply : (s.perform (.consume queue prefetch)).2 = .opened id) :
    (s.perform (.consume queue prefetch)).1.seat? id = some (queue, prefetch) := by
  simp only [Bus.perform] at hreply ⊢
  rcases s.broker.consume_cases queue prefetch with ⟨e, he⟩ | hok
  · rw [he] at hreply
    cases hreply
  · rw [hok] at hreply ⊢
    cases hreply
    have hfind := consumer?_append { s.broker with lastConsumer := s.broker.lastConsumer + 1 }
      (c := ⟨s.broker.lastConsumer + 1, queue, prefetch, false⟩) hs.consumer?_new
      (s.broker.lastConsumer + 1)
    rw [if_pos rfl] at hfind
    rw [seat?, hfind, Option.map_some]

theorem seat?_run (ops : List Op) (hopened : (run ops).OpenedOn id queue prefetch) :
    (run ops).bus.seat? id = some (queue, prefetch) := by
  have hrun : Registered (run ops).bus ∧ ((run ops).OpenedOn id queue prefetch →
      (run ops).bus.seat? id = some (queue, prefetch)) := by
    refine run_induction (P := fun h => Registered h.bus ∧ (h.OpenedOn id queue prefetch →
      h.bus.seat? id = some (queue, prefetch))) ⟨registered_run [], ?_⟩ ?_ ops
    · rintro ⟨e, he, -⟩
      cases he
    · rintro h op ⟨hs, ih⟩
      refine ⟨registered_perform hs op, ?_⟩
      rintro ⟨e, he, hop, hreply⟩
      rcases List.mem_append.mp he with he | he
      · have hold := ih ⟨e, he, hop, hreply⟩
        rcases seats_perform h.bus op id with hsame | ⟨-, -, hnone, -⟩
        · exact hsame.trans hold
        · rw [hold] at hnone
          cases hnone
      · rw [List.mem_singleton.mp he] at hop hreply
        subst hop
        exact seat?_of_opened hs hreply
  exact hrun.2 hopened

theorem limited_run (ops : List Op) : Limited (run ops).bus := by
  have hrun : Registered (run ops).bus ∧ Limited (run ops).bus := by
    refine run_induction (P := fun h => Registered h.bus ∧ Limited h.bus) ?_ ?_ ops
    · refine ⟨registered_run [], ⟨?_, ?_⟩⟩
      · simp [seat?, consumer?]
      · simp [seat?, consumer?]
    · rintro h op ⟨hs, hl⟩
      exact ⟨registered_perform hs op, hl.perform hs op⟩
  exact hrun.2

theorem delivering_run (ops : List Op) : Delivering (run ops) := by
  induction ops using List.reverseRecOn with
  | nil => exact .init
  | append_singleton ops op ih =>
    have hs := registered_run ops
    have htagged := (books_run ops).tagged
    rw [run_concat]
    exact ih.perform hs htagged op

/-- The first message that waited in a queue is held by a consumer now, under the tag of a delivery
that tells all of it. All else in the queues is as it was. -/
structure TakesHead (b b' : Broker) (id : Nat) (queue : String) (d : Delivery) : Prop where
  head : ∃ m rest, b.readyMessages queue = m :: rest ∧ Presents d queue m ∧
    b'.readyMessages queue = rest ∧
    b'.heldMessages queue = b.heldMessages queue ++ [⟨d.tag, id, m⟩]
  others : ∀ n, n ≠ queue →
    b'.readyMessages n = b.readyMessages n ∧ b'.heldMessages n = b.heldMessages n

theorem takesHead_of_delivered {s : Bus} {d : Delivery} {n : String}
    (hqueue : s.queueOf? id = some n)
    (hreply : (s.perform (.poll id)).2 = .polled (.delivered d)) :
    TakesHead s.broker (s.perform (.poll id)).1.broker id n d ∧ d.tag = s.broker.lastTag + 1 := by
  have heffect := perform_effect s (.poll id)
  rw [hreply] at heffect
  generalize (s.perform (.poll id)).1.broker = after at heffect ⊢
  cases heffect with
  | quiet silent => exact silent.elim
  | @taken _ c m rest _ found ready change =>
    have hready := change.ready
    have hheld := change.held
    rw [queueOf?, found, Option.map_some] at hqueue
    obtain rfl := Option.some.inj hqueue
    obtain rfl := id_of_consumer? found
    refine ⟨⟨⟨m, rest, ready, presents_delivery _ _ m, ?_, ?_⟩, fun n hn => ⟨?_, ?_⟩⟩, rfl⟩
    · rw [hready, if_pos rfl]
    · rw [hheld, if_pos rfl]
      rfl
    · rw [hready, if_neg hn]
      rfl
    · rw [hheld, if_neg hn]
      rfl

structure KeepsLimits (h : History) : Prop where
  bounded : ∀ id queue prefetch, h.OpenedOn id queue prefetch → 0 < prefetch →
    h.broker.outstanding queue id ≤ prefetch
  delivers_iff : ∀ id queue prefetch, h.OpenedOn id queue prefetch →
    h.bus.over? id = some false → h.broker.reachable = true →
    ((∃ d, (h.next (.poll id)).reply = .polled (.delivered d)) ↔
      h.broker.readyMessages queue ≠ [] ∧ h.broker.HasRoom queue id prefetch)
  takes : ∀ id queue prefetch d, h.OpenedOn id queue prefetch →
    (h.next (.poll id)).reply = .polled (.delivered d) →
    TakesHead h.broker (h.next (.poll id)).after id queue d
  fresh : ∀ id d, (h.next (.poll id)).reply = .polled (.delivered d) →
    (∀ d' ∈ h.deliveries, d'.tag < d.tag) ∧ ∀ n, ∀ g ∈ h.broker.heldMessages n, g.tag < d.tag

theorem consumer_of_open (hseat : h.bus.seat? id = some (queue, prefetch))
    (hopen : h.bus.over? id = some false) :
    ∃ c, h.bus.consumer? id = some c ∧ c.queue = queue ∧ c.prefetch = prefetch ∧
      c.cancelled = false := by
  obtain ⟨c, hc, hqueue, hprefetch⟩ := consumer_of_seat? hseat
  refine ⟨c, hc, hqueue, hprefetch, ?_⟩
  rw [over?, hc] at hopen
  exact Option.some.inj hopen

theorem delivers_iff_of_open (hl : Limited h.bus)
    (hseat : h.bus.seat? id = some (queue, prefetch)) (hopen : h.bus.over? id = some false)
    (hr : h.broker.reachable = true) :
    (∃ d, (h.next (.poll id)).reply = .polled (.delivered d)) ↔
      h.broker.readyMessages queue ≠ [] ∧ h.broker.HasRoom queue id prefetch := by
  have hknown := hl.known id queue prefetch hseat
  obtain ⟨c, hc, rfl, rfl, hgoing⟩ := consumer_of_open hseat hopen
  rcases poll_cases_of_open hc hgoing hr hknown with
    ⟨hblocked, epoch, hwaits⟩ | ⟨hroom, m, rest, hready, hgiven, -⟩
  · constructor
    · rintro ⟨d, hd⟩
      have hsame : Reply.polled (.delivered d) = .polled (.pending epoch) := hd.symm.trans hwaits
      cases hsame
    · rintro ⟨hsome, hroom⟩
      rcases hblocked with hnil | hfull
      · exact absurd hnil hsome
      · exact absurd hroom hfull
  · have hsome : h.broker.readyMessages c.queue ≠ [] := by
      rw [show h.broker.readyMessages c.queue = m :: rest from hready]
      exact List.cons_ne_nil _ _
    exact ⟨fun _ => ⟨hsome, hroom⟩, fun _ => ⟨_, hgiven⟩⟩

/-- In every run, no consumer holds more than its limit, and a poll of an open one is given the
first message exactly if there is one and the limit leaves room for it. -/
theorem keepsLimits_run (ops : List Op) : (run ops).KeepsLimits := by
  have hlimited := limited_run ops
  have hdelivering := delivering_run ops
  have htagged := (books_run ops).tagged
  constructor
  · intro id queue prefetch hopened hlimit
    exact hlimited.bounded id queue prefetch (seat?_run ops hopened) hlimit
  · intro id queue prefetch hopened hopen hr
    exact delivers_iff_of_open hlimited (seat?_run ops hopened) hopen hr
  · intro id queue prefetch d hopened hreply
    obtain ⟨c, hc, rfl, -⟩ := consumer_of_seat? (seat?_run ops hopened)
    have hqueue : (run ops).bus.queueOf? id = some c.queue := by rw [queueOf?, hc, Option.map_some]
    exact (takesHead_of_delivered hqueue hreply).1
  · intro id d hreply
    obtain ⟨n, m, hqueue, -⟩ := held_of_delivered hreply
    have htag := (takesHead_of_delivered hqueue hreply).2
    constructor
    · intro d' hd'
      have hgiven := hdelivering.given d' hd'
      have hlast : (run ops).bus.broker.lastTag = (run ops).broker.lastTag := rfl
      omega
    · intro n' g hg
      have hbound := htagged.bounded n' g hg
      have hlast : (run ops).bus.broker.lastTag = (run ops).broker.lastTag := rfl
      omega

end History
end Bus
end OutcomeRelay
