import OutcomeRelay.Proofs.QueueEpochs

/-!
Receives that wait. A consumer that receives registers at its queue, looks for the connection, tries
to take a message, and parks where it finds none; between any two of these steps other clients may
do whatever they like. A parked consumer is woken by a new epoch of its queue, and as long as it is
not woken there is nothing that it could go on with.
-/

namespace OutcomeRelay

namespace Broker

theorem known_of_consume (b : Broker) (queue : String) (prefetch : Nat) (c : Consumer)
    (h : (b.consume queue prefetch).2 = .ok c) : (b.queue? queue).isSome := by
  unfold consume whenReachable at h
  split at h
  · split at h
    · cases h
    · next hknown => exact Option.isSome_iff_ne_none.mpr (by simpa using hknown)
  · cases h

end Broker

namespace Bus

open Broker

/-- How far a receive came. It keeps the epoch that its queue had when it registered there. -/
inductive Receive where
  | idle
  | registered (epoch : Nat)
  | checked (epoch : Nat)
  | tried (epoch : Nat)
  | parked (epoch : Nat)
  deriving DecidableEq, Repr

/-- A bus with the receives of its consumers. Whoever loses the connection tells the consumers only
after it is lost, and `losing` counts those who did not tell them yet. -/
structure Reception where
  bus : Bus := {}
  receives : Nat → Receive := fun _ => .idle
  losing : Nat := 0

namespace Reception

inductive Move where
  | operate (op : Op)
  | register (consumer : Nat)
  | check (consumer : Nat)
  | take (consumer : Nat)
  | park (consumer : Nat)
  | abandon (consumer : Nat)
  | lose
  | tell
  deriving DecidableEq, Repr

def put (r : Reception) (id : Nat) (x : Receive) : Reception :=
  { r with receives := fun k => if k = id then x else r.receives k }

def epoch (r : Reception) (id : Nat) : Nat :=
  ((r.bus.queueOf? id).map r.bus.broker.epoch).getD 0

theorem epoch_eq {r : Reception} {id : Nat} {c : Consumer} (hc : r.bus.consumer? id = some c) :
    r.epoch id = r.bus.broker.epoch c.queue := by
  rw [epoch, queueOf?, hc, Option.map_some, Option.map_some, Option.getD_some]

def isWoken (r : Reception) (id : Nat) : Bool :=
  match r.receives id with
  | .parked e => r.epoch id != e
  | _ => false

def register (r : Reception) (id : Nat) : Reception :=
  match r.bus.consumer? id with
  | none => r
  | some c => r.put id (if c.cancelled then .idle else .registered (r.epoch id))

def check (r : Reception) (id e : Nat) : Reception :=
  if r.bus.broker.reachable then r.put id (.checked e)
  else { r with bus := (r.bus.perform (.cancel id)).1 }.put id .idle

def take (r : Reception) (id e : Nat) : Reception :=
  match r.bus.consumer? id with
  | none => r
  | some c =>
    { r with bus := { r.bus with broker := (r.bus.broker.tryTake c).1 } }.put id
      (if (r.bus.broker.tryTake c).2.isSome then .idle else .tried e)

def step (r : Reception) : Move → Reception
  | .operate op => { r with bus := (r.bus.perform op).1 }
  | .register id => if r.receives id = .idle ∨ r.isWoken id then r.register id else r
  | .check id =>
    match r.receives id with
    | .registered e => r.check id e
    | _ => r
  | .take id =>
    match r.receives id with
    | .checked e => r.take id e
    | _ => r
  | .park id =>
    match r.receives id with
    | .tried e => r.put id (.parked e)
    | _ => r
  | .abandon id =>
    match r.receives id with
    | .parked _ => r.put id .idle
    | _ => r
  | .lose =>
    { r with
      bus := { r.bus with broker := { r.bus.broker with reachable := false } }
      losing := r.losing + 1 }
  | .tell =>
    if r.losing = 0 then r
    else { r with bus := { r.bus with broker := r.bus.broker.notifyAll }, losing := r.losing - 1 }

def run (moves : List Move) : Reception :=
  moves.foldl step {}

end Reception

def seat? (s : Bus) (id : Nat) : Option (String × Nat) :=
  (s.consumer? id).map fun c => (c.queue, c.prefetch)

def Seats (s s' : Bus) : Prop :=
  ∀ id, s'.seat? id = s.seat? id ∨
    ∃ queue prefetch, s.seat? id = none ∧ s'.seat? id = some (queue, prefetch) ∧
      (s'.broker.queue? queue).isSome

section Seats

variable {s : Bus}

theorem seats_of_consumers {s' : Bus} (h : s'.consumers = s.consumers) : Seats s s' := by
  intro id
  left
  rw [seat?, consumer?, h, seat?, consumer?]

theorem seats_setConsumer {id : Nat} {c c' : Consumer} (b : Broker) (h : s.consumer? id = some c)
    (hid : c'.id = c.id) (hqueue : c'.queue = c.queue) (hprefetch : c'.prefetch = c.prefetch) :
    Seats s (({ s with broker := b } : Bus).setConsumer c') := by
  intro k
  left
  have hsame : ({ s with broker := b } : Bus).consumer? k = s.consumer? k := rfl
  rw [seat?, consumer?_setConsumer, hsame, seat?]
  split
  · next hk =>
    rw [hk, hid, id_of_consumer? h, h, Option.map_some, Option.map_some, Option.map_some, hqueue,
      hprefetch]
  · rfl

theorem seats_append {c : Consumer} {b : Broker} (known : (b.queue? c.queue).isSome) :
    Seats s ⟨b, s.consumers ++ [c]⟩ := by
  intro id
  have hfind : (⟨b, s.consumers ++ [c]⟩ : Bus).consumer? id =
      (s.consumer? id).or ([c].find? fun x => x.id == id) := List.find?_append
  rw [seat?, hfind, seat?]
  cases s.consumer? id with
  | some x => exact .inl rfl
  | none =>
    rw [Option.none_or]
    cases hnew : [c].find? fun x => x.id == id with
    | none => exact .inl rfl
    | some x =>
      obtain rfl : x = c := List.mem_singleton.mp (List.mem_of_find?_eq_some hnew)
      exact .inr ⟨x.queue, x.prefetch, rfl, rfl, known⟩

theorem seats_perform (s : Bus) (op : Op) : Seats s (s.perform op).1 := by
  cases op with
  | declare | declareEntity | send | ack | reject | setReachable => exact seats_of_consumers rfl
  | consume queue prefetch =>
    have hknown := s.broker.known_of_consume queue prefetch
    rcases s.broker.consume_cases queue prefetch with ⟨e, he⟩ | hok
    · simp only [perform, he]
      exact seats_of_consumers rfl
    · rw [hok] at hknown
      simp only [perform, hok]
      exact seats_append (hknown _ rfl)
  | poll id =>
    unfold perform
    dsimp only
    split
    · exact seats_of_consumers rfl
    · next c hc =>
      obtain ⟨hid, hqueue⟩ := s.broker.poll_consumer c
      exact seats_setConsumer _ hc hid hqueue (s.broker.poll_prefetch c)
  | cancel id =>
    unfold perform
    dsimp only
    split
    · exact seats_of_consumers rfl
    · next c hc => exact seats_setConsumer s.broker hc rfl rfl rfl
  | close id =>
    unfold perform
    dsimp only
    split
    · exact seats_of_consumers rfl
    · next c hc =>
      obtain ⟨hid, hqueue⟩ := s.broker.close_consumer c
      exact seats_setConsumer _ hc hid hqueue (s.broker.close_prefetch c)

end Seats

namespace Reception

def IsUp (r : Reception) : Prop :=
  r.bus.broker.reachable = true ∨ 0 < r.losing

/-- A consumer that saw an epoch of its queue knows this of its limit and the queue until the queue
has another epoch. -/
def Watches (r : Reception) (id e : Nat) (P : Nat → Queue → Prop) : Prop :=
  ∃ n prefetch q, r.bus.seat? id = some (n, prefetch) ∧ r.bus.broker.queue? n = some q ∧
    e ≤ q.epoch ∧ (q.epoch = e → P prefetch q)

def Knows (r : Reception) (id : Nat) : Receive → Prop
  | .idle => True
  | .registered e => r.Watches id e fun _ _ => True
  | .checked e => r.Watches id e fun _ _ => r.IsUp
  | .tried e | .parked e => r.Watches id e fun prefetch q => r.IsUp ∧ q.Blocks id prefetch

structure Stirs (r r' : Reception) : Prop where
  seats : Seats r.bus r'.bus
  queues : ∀ n q, r.bus.broker.queue? n = some q → ∃ q', r'.bus.broker.queue? n = some q' ∧
    (q.epoch < q'.epoch ∨ q.Calm q' ∧ (r.IsUp → r'.IsUp))

section Stirs

variable {r r' : Reception}

theorem Stirs.of_tells (seats : Seats r.bus r'.bus)
    (tells : Broker.Tells r.bus.broker r'.bus.broker) (up : r.IsUp → r'.IsUp) : Stirs r r' := by
  refine ⟨seats, fun n q hq => ?_⟩
  obtain ⟨q', hq', hnew | hcalm⟩ := tells n q hq
  · exact ⟨q', hq', .inl hnew⟩
  · exact ⟨q', hq', .inr ⟨hcalm, up⟩⟩

theorem Watches.mono {id e : Nat} {P P' : Nat → Queue → Prop} (h : Stirs r r')
    (hr : r.Watches id e P)
    (calm : ∀ prefetch q q', q.Calm q' → (r.IsUp → r'.IsUp) → P prefetch q → P' prefetch q') :
    r'.Watches id e P' := by
  obtain ⟨n, prefetch, q, hseat, hq, hle, hknows⟩ := hr
  obtain ⟨q', hq', hstirs⟩ := h.queues n q hq
  have hseat' : r'.bus.seat? id = some (n, prefetch) := by
    rcases h.seats id with hsame | ⟨_, _, hnone, -⟩
    · exact hsame.trans hseat
    · rw [hseat] at hnone
      cases hnone
  refine ⟨n, prefetch, q', hseat', hq', ?_⟩
  rcases hstirs with hnew | ⟨hcalm, hup⟩
  · exact ⟨by omega, fun heq => by omega⟩
  · rw [hcalm.epoch]
    exact ⟨hle, fun heq => calm prefetch q q' hcalm hup (hknows heq)⟩

theorem Knows.mono {id : Nat} {x : Receive} (h : Stirs r r') (hr : r.Knows id x) :
    r'.Knows id x := by
  cases x with
  | idle => trivial
  | registered e => exact Watches.mono h hr fun _ _ _ _ _ _ => trivial
  | checked e => exact Watches.mono h hr fun _ _ _ _ hup hold => hup hold
  | tried e | parked e =>
    exact Watches.mono h hr fun _ _ _ hcalm hup hold => ⟨hup hold.1, hcalm.blocks hold.2⟩

end Stirs

structure Sound (r : Reception) : Prop where
  seated : ∀ id n prefetch, r.bus.seat? id = some (n, prefetch) → (r.bus.broker.queue? n).isSome
  knows : ∀ id, r.Knows id (r.receives id)

namespace Sound

variable {r r' : Reception} {id e : Nat}

theorem stirs (hr : r.Sound) (h : Stirs r r') (receives : r'.receives = r.receives) : r'.Sound where
  seated id n prefetch hseat := by
    rcases h.seats id with hsame | ⟨queue, limit, -, hnew, hknown⟩
    · obtain ⟨q, hq⟩ := Option.isSome_iff_exists.mp (hr.seated id n prefetch (hsame ▸ hseat))
      obtain ⟨q', hq', -⟩ := h.queues n q hq
      exact Option.isSome_iff_exists.mpr ⟨q', hq'⟩
    · rw [hseat] at hnew
      cases hnew
      exact hknown
  knows id := receives ▸ (hr.knows id).mono h

theorem put (hr : r.Sound) {x : Receive} (hx : r.Knows id x) : (r.put id x).Sound where
  seated := hr.seated
  knows k := by
    -- what is known does not depend on the receives
    change r.Knows k (if k = id then x else r.receives k)
    split
    · next hk => exact hk ▸ hx
    · exact hr.knows k

theorem operate (hr : r.Sound) (op : Op) :
    Sound { r with bus := (r.bus.perform op).1 } := by
  refine hr.stirs ⟨seats_perform r.bus op, fun n q hq => ?_⟩ rfl
  by_cases hlost : op = .setReachable false
  · -- the loss of the connection is told to every queue at once
    subst hlost
    exact ⟨q.notify, queue?_lost hq, .inl (Nat.lt_succ_self _)⟩
  · have hreach := reachable_perform r.bus op
    have hup : r.IsUp → IsUp { r with bus := (r.bus.perform op).1 } := by
      rintro (hup | hlosing)
      · left
        rw [hreach]
        cases op with
        | setReachable v =>
          cases v with
          | true => rfl
          | false => exact absurd rfl hlost
        | _ => exact hup
      · exact .inr hlosing
    obtain ⟨q', hq', hnew | hcalm⟩ := tells_perform r.bus op n q hq
    · exact ⟨q', hq', .inl hnew⟩
    · exact ⟨q', hq', .inr ⟨hcalm, hup⟩⟩

theorem register (hr : r.Sound) (id : Nat) : (r.register id).Sound := by
  unfold Reception.register
  split
  · exact hr
  · next c hc =>
    split
    · exact hr.put trivial
    · have hseat : r.bus.seat? id = some (c.queue, c.prefetch) := by rw [seat?, hc, Option.map_some]
      obtain ⟨q, hq⟩ := Option.isSome_iff_exists.mp (hr.seated id _ _ hseat)
      have hepoch : r.epoch id = q.epoch := by
        rw [epoch_eq hc, Broker.epoch, hq, Option.map_some, Option.getD_some]
      exact hr.put ⟨c.queue, c.prefetch, q, hseat, hq, Nat.le_of_eq hepoch, fun _ => trivial⟩

theorem check (hr : r.Sound) (h : r.receives id = .registered e) : (r.check id e).Sound := by
  unfold Reception.check
  split
  · next hup =>
    have hknows : r.Knows id (.registered e) := h ▸ hr.knows id
    obtain ⟨n, prefetch, q, hseat, hq, hle, -⟩ := hknows
    exact hr.put ⟨n, prefetch, q, hseat, hq, hle, fun _ => .inl hup⟩
  · exact (hr.operate (.cancel id)).put trivial

theorem take (hr : r.Sound) (h : r.receives id = .checked e) : (r.take id e).Sound := by
  unfold Reception.take
  split
  · exact hr
  · next c hc =>
    have hseats : Seats r.bus { r.bus with broker := (r.bus.broker.tryTake c).1 } :=
      seats_of_consumers rfl
    have htook : Sound { r with bus := { r.bus with broker := (r.bus.broker.tryTake c).1 } } :=
      hr.stirs (.of_tells hseats (r.bus.broker.tells_tryTake c) fun hup => ?up) rfl
    case up =>
      rcases hup with hup | hlosing
      · exact .inl ((r.bus.broker.reachable_tryTake c).trans hup)
      · exact .inr hlosing
    cases hgot : (r.bus.broker.tryTake c).2 with
    | some d => exact htook.put trivial
    | none =>
      have hknows : r.Knows id (.checked e) := h ▸ hr.knows id
      obtain ⟨n, prefetch, q, hseat, hq, hle, hup⟩ := hknows
      obtain ⟨rfl, rfl⟩ : c.queue = n ∧ c.prefetch = prefetch := by
        rw [seat?, hc, Option.map_some] at hseat
        exact Prod.mk.inj (Option.some.inj hseat)
      obtain ⟨hblocks, htry⟩ : q.Blocks id c.prefetch ∧ r.bus.broker.tryTake c =
          ({ r.bus.broker with lastTag := r.bus.broker.lastTag + 1 }, none) := by
        rw [← id_of_consumer? hc]
        rcases tryTake_cases hq with hnone | ⟨-, m, rest, -, hsome, -⟩
        · exact hnone
        · rw [hgot] at hsome
          cases hsome
      refine htook.put ⟨c.queue, c.prefetch, q, hseat, ?_, hle, fun heq => ⟨?_, hblocks⟩⟩
      · rw [htry]
        exact hq
      · rcases hup heq with hup | hlosing
        · exact .inl ((r.bus.broker.reachable_tryTake c).trans hup)
        · exact .inr hlosing

theorem step (hr : r.Sound) (move : Move) : (r.step move).Sound := by
  cases move with
  | operate op => exact hr.operate op
  | register id =>
    unfold Reception.step
    dsimp only
    split
    · exact hr.register id
    · exact hr
  | check id =>
    unfold Reception.step
    dsimp only
    split
    · next e he => exact hr.check he
    · exact hr
  | take id =>
    unfold Reception.step
    dsimp only
    split
    · next e he => exact hr.take he
    · exact hr
  | park id =>
    unfold Reception.step
    dsimp only
    split
    · next e he =>
      have hknows : r.Knows id (.tried e) := he ▸ hr.knows id
      exact hr.put (x := .parked e) hknows
    · exact hr
  | abandon id =>
    unfold Reception.step
    dsimp only
    split
    · exact hr.put trivial
    · exact hr
  | lose =>
    -- the consumers are not told yet, but will be
    exact hr.stirs ⟨seats_of_consumers rfl, fun n q hq =>
      ⟨q, hq, .inr ⟨.refl q, fun _ => .inr (Nat.succ_pos _)⟩⟩⟩ rfl
  | tell =>
    unfold Reception.step
    dsimp only
    split
    · exact hr
    · refine hr.stirs ⟨seats_of_consumers rfl, fun n q hq => ⟨q.notify, ?_, ?_⟩⟩ rfl
      · change r.bus.broker.notifyAll.queue? n = some q.notify
        rw [queue?_notifyAll, hq, Option.map_some]
      · exact .inl (Nat.lt_succ_self _)

end Sound

theorem sound_run (moves : List Move) : (run moves).Sound := by
  induction moves using List.reverseRecOn with
  | nil => exact ⟨fun id n prefetch h => (nomatch h), fun _ => trivial⟩
  | append_singleton moves move ih =>
    rw [run, List.foldl_concat]
    exact ih.step move

/-- A consumer that is parked and was not woken since it registered can do nothing: no message waits
in its queue, or it holds as many as it may, and nobody lost the connection without telling. -/
theorem blocked_of_parked (moves : List Move) {id e : Nat}
    (parked : (run moves).receives id = .parked e) (unwoken : (run moves).isWoken id = false) :
    ∃ c q, (run moves).bus.consumer? id = some c ∧
      (run moves).bus.broker.queue? c.queue = some q ∧
      ((run moves).losing = 0 → (run moves).bus.broker.reachable = true) ∧
      (q.ready = [] ∨ 0 < c.prefetch ∧ c.prefetch ≤ q.outstanding id) := by
  have hknows : (run moves).Knows id (.parked e) := parked ▸ (sound_run moves).knows id
  obtain ⟨n, prefetch, q, hseat, hq, -, hblocked⟩ := hknows
  obtain ⟨c, hc, hpair⟩ := Option.map_eq_some_iff.mp hseat
  obtain ⟨rfl, rfl⟩ := Prod.mk.inj hpair
  have hepoch : (run moves).epoch id = q.epoch := by
    rw [epoch_eq hc, Broker.epoch, hq, Option.map_some, Option.getD_some]
  have hsame : q.epoch = e := by
    rw [isWoken, parked] at unwoken
    rw [← hepoch]
    simpa using unwoken
  obtain ⟨hup, hblocks⟩ := hblocked hsame
  refine ⟨c, q, hc, hq, fun hlosing => ?_, hblocks⟩
  rcases hup with hup | hlosing'
  · exact hup
  · omega

/-- A consumer that may hold one message holds one, and waits for another. -/
def fullConsumer : List Move :=
  [.operate (.declare ⟨[⟨"events", .direct, true⟩], [⟨"work", true, none⟩],
      [⟨"work", "events", "paid"⟩]⟩),
    .operate (.consume "work" 1),
    .operate (.send ⟨"events", "paid", [], "1", "application/json", true⟩),
    .operate (.poll 1), .register 1, .check 1, .take 1, .park 1]

theorem blocked_of_parked_full :
    (run fullConsumer).receives 1 = .parked 1 ∧ (run fullConsumer).isWoken 1 = false ∧
    ∃ c q, (run fullConsumer).bus.consumer? 1 = some c ∧
      (run fullConsumer).bus.broker.queue? c.queue = some q ∧
      ((run fullConsumer).losing = 0 → (run fullConsumer).bus.broker.reachable = true) ∧
      (q.ready = [] ∨ 0 < c.prefetch ∧ c.prefetch ≤ q.outstanding 1) :=
  have parked : (run fullConsumer).receives 1 = .parked 1 := by decide +kernel
  have unwoken : (run fullConsumer).isWoken 1 = false := by decide +kernel
  ⟨parked, unwoken, blocked_of_parked fullConsumer parked unwoken⟩

section Undisturbed

variable {r : Reception} {id e : Nat} {c : Consumer}

theorem tell_of_lose (r : Reception) :
    (r.step .lose).step .tell = { r with bus := (r.bus.perform (.setReachable false)).1 } := by
  rfl

@[simp]
theorem receives_put (r : Reception) (id : Nat) (x : Receive) : (r.put id x).receives id = x :=
  if_pos rfl

theorem step_check (h : r.receives id = .registered e) : r.step (.check id) = r.check id e := by
  simp only [step, h]

theorem step_take (h : r.receives id = .checked e) : r.step (.take id) = r.take id e := by
  simp only [step, h]

theorem step_park (h : r.receives id = .tried e) : r.step (.park id) = r.put id (.parked e) := by
  simp only [step, h]

theorem steps_of_idle (h : r.receives id = .idle) :
    r.step (.check id) = r ∧ r.step (.take id) = r ∧ r.step (.park id) = r := by
  simp only [step, h, and_self]

def receive (r : Reception) (id : Nat) : Reception :=
  [.register id, .check id, .take id, .park id].foldl step r

theorem receive_of_over (h : r.receives id = .idle) (hc : r.bus.consumer? id = some c)
    (hover : c.cancelled = true) : r.receive id = r.put id .idle := by
  have hregister : r.step (.register id) = r.put id .idle := by
    simp only [step, h, true_or, if_true, register, hc, hover]
  obtain ⟨hcheck, htake, hpark⟩ := steps_of_idle (receives_put r id .idle)
  simp only [receive, List.foldl_cons, List.foldl_nil, hregister, hcheck, htake, hpark]

section Open

variable (h : r.receives id = .idle) (hc : r.bus.consumer? id = some c)
  (hopen : c.cancelled = false)

include h hc hopen

theorem step_register : r.step (.register id) = r.put id (.registered (r.epoch id)) := by
  simp only [step, h, true_or, if_true, register, hc, hopen, Bool.false_eq_true, if_false]

theorem receive_of_lost (hr : r.bus.broker.reachable = false) :
    (r.receive id).bus = (r.bus.perform (.cancel id)).1 ∧ (r.receive id).receives id = .idle := by
  have hcheck : (r.put id (.registered (r.epoch id))).check id (r.epoch id) =
      { r.put id (.registered (r.epoch id)) with
        bus := (r.bus.perform (.cancel id)).1 }.put id .idle :=
    if_neg (Bool.eq_false_iff.mp hr)
  have hdone := receives_put { r.put id (.registered (r.epoch id)) with
    bus := (r.bus.perform (.cancel id)).1 } id .idle
  obtain ⟨-, htake, hpark⟩ := steps_of_idle hdone
  rw [receive, List.foldl_cons, step_register h hc hopen, List.foldl_cons,
    step_check (receives_put r id _), hcheck, List.foldl_cons, htake, List.foldl_cons, hpark]
  exact ⟨rfl, hdone⟩

theorem receive_of_reachable (hr : r.bus.broker.reachable = true) :
    (r.receive id).bus = { r.bus with broker := (r.bus.broker.tryTake c).1 } ∧
      (r.receive id).receives id =
        if (r.bus.broker.tryTake c).2.isSome then .idle else .parked (r.epoch id) := by
  have hcheck : (r.put id (.registered (r.epoch id))).check id (r.epoch id) =
      (r.put id (.registered (r.epoch id))).put id (.checked (r.epoch id)) :=
    if_pos hr
  rw [receive, List.foldl_cons, step_register h hc hopen, List.foldl_cons,
    step_check (receives_put r id _), hcheck, List.foldl_cons, step_take (receives_put _ id _)]
  generalize hchecked : (r.put id (.registered (r.epoch id))).put id (.checked (r.epoch id)) = r'
  have hbus : r'.bus = r.bus := by
    rw [← hchecked]
    rfl
  unfold Reception.take
  rw [hbus, hc]
  dsimp only
  cases hgot : (r.bus.broker.tryTake c).2 with
  | some d =>
    obtain ⟨-, -, hpark⟩ := steps_of_idle (receives_put
      { r' with bus := { r.bus with broker := (r.bus.broker.tryTake c).1 } } id .idle)
    simp only [Option.isSome_some, if_true, List.foldl_cons, List.foldl_nil, hpark]
    exact ⟨rfl, receives_put _ id _⟩
  | none =>
    simp only [Option.isSome_none, Bool.false_eq_true, if_false, List.foldl_cons, List.foldl_nil]
    rw [step_park (receives_put _ id _)]
    exact ⟨rfl, receives_put _ id _⟩

end Open

/-- A receive that nothing comes between is a poll, and parks where the poll is pending. -/
theorem poll_of_receive (h : r.receives id = .idle) (hc : r.bus.consumer? id = some c) :
    (r.receive id).bus.broker = (r.bus.perform (.poll id)).1.broker ∧
      (∀ k, (r.receive id).bus.consumer? k = (r.bus.perform (.poll id)).1.consumer? k) ∧
      (r.receive id).receives id = match (r.bus.perform (.poll id)).2 with
        | .polled (.pending e) => .parked e
        | _ => .idle := by
  have hpoll : r.bus.perform (.poll id) =
      (({ r.bus with broker := (r.bus.broker.poll c).1 } : Bus).setConsumer
        (r.bus.broker.poll c).2.1, .polled (r.bus.broker.poll c).2.2) := by
    simp only [perform, hc]
  have hsame : ∀ (b : Broker) k,
      (({ r.bus with broker := b } : Bus).setConsumer c).consumer? k = r.bus.consumer? k := by
    intro b k
    rw [consumer?_setConsumer, id_of_consumer? hc]
    split
    · next hk =>
      subst hk
      exact (congrArg (Option.map _) hc).trans hc.symm
    · rfl
  rw [hpoll]
  cases hopen : c.cancelled with
  | true =>
    rw [receive_of_over h hc hopen, poll_of_over hopen]
    exact ⟨rfl, fun k => (hsame _ k).symm, receives_put r id _⟩
  | false =>
    cases hr : r.bus.broker.reachable with
    | false =>
      obtain ⟨hbus, hdone⟩ := receive_of_lost h hc hopen hr
      rw [hbus, hdone, poll_of_lost hopen hr]
      have hcancel : (r.bus.perform (.cancel id)).1 = r.bus.setConsumer (cancel c) := by
        simp only [perform, hc]
      rw [hcancel]
      exact ⟨rfl, fun _ => rfl, rfl⟩
    | true =>
      obtain ⟨hbus, hdone⟩ := receive_of_reachable h hc hopen hr
      rw [hbus, hdone, epoch_eq hc, poll_eq_tryTake hopen hr]
      refine ⟨rfl, fun k => (hsame _ k).symm, ?_⟩
      cases (r.bus.broker.tryTake c).2 <;> rfl

end Undisturbed

end Reception
end Bus
end OutcomeRelay
