import OutcomeRelay.Amqp.Method
import OutcomeRelay.Proofs.SignalAccounting
import OutcomeRelay.Simulation.Publish

/-!
Messages that the broker gives back. A client reports such a message with an acknowledgement or with
a refusal, some time after the send, and a watch waits only so long. A return signal is told if the
message came with an acknowledgement and in time. A refusal has it in its cause alone, and whatever
comes late is not seen.
-/

namespace OutcomeRelay

def Amqp.Confirmation.returned? : Amqp.Confirmation → Option Returned
  | .ack m | .nack m => m

structure ReturnSignal.Carries (x : ReturnSignal) (m : Returned) : Prop where
  code : x.code = m.code
  reason : x.reason = .ofCode m.code
  text : x.text = m.text
  exchange : x.exchange = m.exchange
  routingKey : x.routingKey = m.routingKey
  body : x.body = m.body

namespace Publisher

open scoped List

/-- What a client reports of a message, so long after the send. A channel that went away leaves no
confirmation. -/
structure Report where
  delay : Duration
  confirmation : Option Amqp.Confirmation
  deriving DecidableEq, Repr

def Report.returned? (p : Report) : Option Returned :=
  p.confirmation.bind Amqp.Confirmation.returned?

namespace Resolution

def ofConfirm : Except BusError Confirm → Resolution
  | .ok c => .confirmed c
  | .error e => .failed e

def watched (limit : Duration) (p : Report) : Resolution :=
  if p.delay ≤ limit then ofConfirm (Amqp.Confirmation.resolve p.confirmation) else .timedOut

variable {limit : Duration} {p : Report} {m : Returned} {o : Outbound} {x : ReturnSignal}

theorem watched_of_lt (late : limit < p.delay) : watched limit p = .timedOut := by
  rw [watched, if_neg (Nat.not_le.mpr late)]

theorem watched_of_ack (acked : p.confirmation = some (.ack (some m))) (inTime : p.delay ≤ limit) :
    watched limit p = .confirmed (.returned m) := by
  rw [watched, if_pos inTime, acked]
  rfl

theorem watched_of_nack (nacked : p.confirmation = some (.nack (some m)))
    (inTime : p.delay ≤ limit) :
    watched limit p = .confirmed (.nack (some s!"{m.code} {m.text}")) := by
  rw [watched, if_pos inTime, nacked]
  rfl

theorem returnSignal?_returned (o : Outbound) (m : Returned) :
    ∃ x, returnSignal? o (.confirmed (.returned m)) = some x ∧ x.Carries m :=
  ⟨_, rfl, rfl, rfl, rfl, rfl, rfl, rfl⟩

theorem returned_of_signal {r : Resolution} (h : returnSignal? o r = some x) :
    ∃ m, r = .confirmed (.returned m) ∧ x.Carries m := by
  rcases r with (_ | m | _) | _ | _
  case confirmed.returned =>
    obtain rfl := Option.some.inj h
    exact ⟨m, rfl, rfl, rfl, rfl, rfl, rfl, rfl⟩
  all_goals cases h

end Resolution

/-- Instants are whole milliseconds, and so is the time that a watch waits. -/
theorem ceilMillis_le_ofMillis (d : Duration) (n : Nat) :
    Duration.ceilMillis d ≤ Duration.ceilMillis (.ofMillis n) ↔ d ≤ .ofMillis n := by
  have hrounded : ∀ d n : Nat,
      (d + 1000000 - 1) / 1000000 ≤ (n * 1000000 + 1000000 - 1) / 1000000 ↔ d ≤ n * 1000000 := by
    omega
  exact hrounded d n

theorem expect_watched (q : Simulation.PublisherState) (w : Simulation.World) (o : Outbound)
    (p : Report) :
    (q.expect w o (some (p.delay, .ofConfirm (Amqp.Confirmation.resolve p.confirmation)))).pending =
      q.pending ++ [⟨min (w.dueAfter p.delay) (w.dueAfter q.config.confirmTimeout), o,
        .watched q.config.confirmTimeout p⟩] := by
  have hdue : w.dueAfter p.delay ≤ w.dueAfter q.config.confirmTimeout ↔
      p.delay ≤ q.config.confirmTimeout := by
    rw [Simulation.World.dueAfter, Simulation.World.dueAfter, Nat.add_le_add_iff_left]
    exact ceilMillis_le_ofMillis p.delay q.config.confirmTimeoutMs
  by_cases inTime : p.delay ≤ q.config.confirmTimeout
  · simp [Simulation.PublisherState.expect, Resolution.watched, hdue, inTime]
  · have hfirst := Nat.min_eq_right (Nat.le_of_not_le fun hle => inTime (hdue.mp hle))
    simp [Simulation.PublisherState.expect, Resolution.watched, hdue, inTime, hfirst]

def Posting.confirm (s : Posting) (outcome : ConfirmOutcome) : ConfirmSignal :=
  ⟨s.publication.messageId, s.target, outcome, s.publication.body⟩

namespace Flow

variable {f : Flow} {j : Nat} {s : Posting} {p : Report} {m : Returned}

structure Learned (f : Flow) (j : Nat) (s : Posting) (p : Report) : Prop where
  here : f.postings[j]? = some s
  accepted : s.call.isAccepted
  resolved : s.call.resolution = some (.watched f.config.confirmTimeout p)

structure Tells (f : Flow) (j : Nat) (s : Posting) (all : List Signal) : Prop where
  told : s.call.told <+: all
  further : s.call.told = all ∨ (f.next (.answer j .turn)).isSome

def Surfaced (f : Flow) : Prop :=
  ∀ j s p m, f.Learned j s p → p.returned? = some m →
    ∃ all x, f.Tells j s all ∧ all.filterMap Signal.return? = [x] ∧ x.Carries m

structure ReturnsTold (f : Flow) : Prop where
  told : f.heard ++ f.queued ~ f.postings.flatMap fun s => s.call.told
  acked : ∀ j s p m, f.Learned j s p → p.confirmation = some (.ack (some m)) →
    p.delay ≤ f.config.confirmTimeout →
      ∃ x, x.Carries m ∧ f.Tells j s [.returned x, .confirmed (s.confirm .ack)]
  nacked : ∀ j s p m, f.Learned j s p → p.confirmation = some (.nack (some m)) →
    p.delay ≤ f.config.confirmTimeout →
      f.Tells j s [.confirmed (s.confirm (.nack (some s!"{m.code} {m.text}")))]
  late : ∀ j s p, f.Learned j s p → f.config.confirmTimeout < p.delay →
    f.Tells j s [.confirmed (s.confirm .timedOut)]
  genuine : ∀ x, .returned x ∈ f.heard ++ f.queued → ∃ s ∈ f.postings, ∃ m,
    s.call.resolution = some (.confirmed (.returned m)) ∧ x.Carries m

theorem Sound.tells (h : f.Sound) (learned : f.Learned j s p) :
    ∃ o, s.publication.message f.config s.target = .ok o ∧
      f.Tells j s (signals o (.watched f.config.confirmTimeout p)) := by
  have hresolved := learned.resolved
  obtain ⟨o, hm, ⟨hnone, -⟩ | ⟨r, hr, hall, hleft⟩⟩ :=
    (h.of_index learned.here).stage.watch learned.accepted
  · rw [hresolved] at hnone
    cases hnone
  · obtain rfl := Option.some.inj (hresolved.symm.trans hr)
    refine ⟨o, hm, ⟨_, hall⟩, ?_⟩
    rcases hleft with hleft | hstep
    · rw [hleft, List.append_nil] at hall
      exact .inl hall
    · exact .inr (h.isSome_next learned.here learned.accepted hstep)

theorem confirmSignal_eq {o : Outbound} {c : PublisherConfig} (r : Resolution)
    (hm : s.publication.message c s.target = .ok o) : confirmSignal o r = s.confirm r.outcome := by
  obtain ⟨hid, htarget, hbody⟩ := Publication.message_ok hm
  rw [confirmSignal, hid, htarget, hbody, Posting.confirm]

theorem Sound.genuine (h : f.Sound) {x : ReturnSignal} (hx : .returned x ∈ f.heard ++ f.queued) :
    ∃ s ∈ f.postings, ∃ m, s.call.resolution = some (.confirmed (.returned m)) ∧ x.Carries m := by
  obtain ⟨s, hs, htold⟩ := List.mem_flatMap.mp (h.books.subset hx)
  have hstage := (h.postings s hs).stage
  cases hacc : s.call.isAccepted with
  | false =>
    rw [hstage.silent hacc] at htold
    cases htold
  | true =>
    obtain ⟨o, -, ⟨-, hnone, -⟩ | ⟨r, hr, hall, -⟩⟩ := hstage.watch hacc
    · rw [hnone] at htold
      cases htold
    · have hsignal : .returned x ∈ signals o r := hall ▸ List.mem_append_left _ htold
      have hreturn : returnSignal? o r = some x := by
        simpa [signals] using hsignal
      obtain ⟨m, rfl, hcarries⟩ := Resolution.returned_of_signal hreturn
      exact ⟨s, hs, m, hr, hcarries⟩

/-- In every run, a message that came back has a signal of its return exactly if it came with an
acknowledgement and in time, and no other message has one. -/
theorem returnsTold_run (c : PublisherConfig) (moves : List Move) :
    (run c moves).ReturnsTold := by
  have h := sound_run c moves
  refine ⟨h.books, ?_, ?_, ?_, fun _ => h.genuine⟩
  · intro j s p m learned acked inTime
    obtain ⟨o, hm, htells⟩ := h.tells learned
    obtain ⟨x, hx, hcarries⟩ := Resolution.returnSignal?_returned o m
    rw [Resolution.watched_of_ack acked inTime, signals, hx, confirmSignal_eq _ hm] at htells
    exact ⟨x, hcarries, htells⟩
  · intro j s p m learned nacked inTime
    obtain ⟨o, hm, htells⟩ := h.tells learned
    rwa [Resolution.watched_of_nack nacked inTime, signals, confirmSignal_eq _ hm] at htells
  · intro j s p learned late
    obtain ⟨o, hm, htells⟩ := h.tells learned
    rwa [Resolution.watched_of_lt late, signals, confirmSignal_eq _ hm] at htells

def reportedRun (p : Report) : List Move :=
  [.publish 0 ⟨"orders", "refunded"⟩ (.notice ⟨"", ⟨⟨2025, 1, 1⟩, 0, 0, 0, 0⟩⟩ "id"),
    .answer 0 (.transport (.ok ())),
    .answer 0 (.resolved (.watched (PublisherConfig.confirmTimeout {}) p)), .answer 0 .turn]

def unroutable : Returned :=
  ⟨312, "NO_ROUTE", "orders", "refunded", some "id", []⟩

theorem not_surfaced_of_untold (learned : f.Learned j s p) (back : p.returned? = some m)
    (done : f.next (.answer j .turn) = none) (untold : s.call.told.filterMap Signal.return? = []) :
    ¬ f.Surfaced := by
  intro h
  obtain ⟨all, x, htells, hone, -⟩ := h j s p m learned back
  rcases htells.further with hall | hmore
  · rw [← hall, untold] at hone
    cases hone
  · rw [done] at hmore
    cases hmore

/-- A message that comes back later than the watch waits, or with a refusal, is not told of. -/
theorem not_surfaced_of_late_or_refused :
    ¬ (run {} (reportedRun ⟨.ofSeconds 6, some (.ack (some unroutable))⟩)).Surfaced ∧
    ¬ (run {} (reportedRun ⟨0, some (.nack (some unroutable))⟩)).Surfaced := by
  constructor
  · exact not_surfaced_of_untold (j := 0) (p := ⟨.ofSeconds 6, some (.ack (some unroutable))⟩)
      (m := unroutable) ⟨rfl, rfl, rfl⟩ rfl rfl rfl
  · exact not_surfaced_of_untold (j := 0) (p := ⟨0, some (.nack (some unroutable))⟩)
      (m := unroutable) ⟨rfl, rfl, rfl⟩ rfl rfl rfl

end Flow
end Publisher
end OutcomeRelay
