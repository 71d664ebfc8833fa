import OutcomeRelay.Amqp.Client

/-!
The channel that a client publishes on. Whatever a broker answers, a message goes out at most once,
on a channel that confirms and that was found to be open or is new. A channel is kept while it is
open and takes what is published; after a failure a fresh one is asked for, and a closed client gets
none.
-/

namespace OutcomeRelay.Amqp

variable {α β σ : Type}

abbrev Transcript := List (Request × Bool)

def Request.channel? : Request → Option Nat
  | .connection => none
  | .isOpen channel | .call channel _ => some channel

structure Published where
  channel : Nat
  message : Outbound
  taken : Bool

namespace Published

def request (p : Published) : Request × Bool :=
  (.call p.channel (.basicPublish p.message), p.taken)

def of? : Request × Bool → Option Published
  | (.call channel (.basicPublish o), taken) => some ⟨channel, o, taken⟩
  | _ => none

theorem of?_eq_some {x : Request × Bool} {p : Published} : of? x = some p ↔ x = p.request := by
  constructor
  · intro h
    unfold of? at h
    split at h
    · cases h
      rfl
    · cases h
  · rintro rfl
    rfl

end Published

def published (rs : Transcript) : List Published :=
  rs.filterMap Published.of?

theorem published_append (rs rs' : Transcript) :
    published (rs ++ rs') = published rs ++ published rs' :=
  List.filterMap_append ..

theorem mem_published {rs : Transcript} {p : Published} : p ∈ published rs ↔ p.request ∈ rs := by
  simp only [published, List.mem_filterMap, Published.of?_eq_some]
  constructor
  · rintro ⟨x, hx, rfl⟩
    exact hx
  · intro h
    exact ⟨_, h, rfl⟩

namespace Dialogue

inductive Goes : Dialogue α → Transcript → α → Prop where
  | done (a : α) : Goes (done a) [] a
  | ask {r : Request} {next : Bool → Dialogue α} {answer : Bool} {rest : Transcript} {a : α}
      (h : Goes (next answer) rest a) : Goes (ask r next) ((r, answer) :: rest) a

theorem goes_run (answer : σ → Request → σ × Bool) (d : Dialogue α) (s : σ) :
    Goes d (transcript answer d s) (run answer d s).2 := by
  induction d generalizing s with
  | done a => exact .done a
  | ask r next ih => exact .ask (ih _ _)

theorem Goes.of_pure {a a' : α} {b b' : β} {rs : Transcript}
    (h : Goes (pure (a, b)) rs (a', b')) : rs = [] ∧ a' = a ∧ b' = b := by
  cases h
  exact ⟨rfl, rfl, rfl⟩

theorem Goes.of_bind {d : Dialogue α} {f : α → Dialogue β} {rs : Transcript} {b : β}
    (h : Goes (d >>= f) rs b) : ∃ before a after, Goes d before a ∧ Goes (f a) after b ∧
      rs = before ++ after := by
  induction d generalizing rs with
  | done a => exact ⟨[], a, rs, .done a, h, rfl⟩
  | ask r next ih =>
    cases h with
    | ask h =>
      obtain ⟨before, a, after, hd, hf, rfl⟩ := ih _ h
      exact ⟨_, a, after, .ask hd, hf, rfl⟩

theorem Goes.of_request {r : Request} {f : Bool → Dialogue β} {rs : Transcript} {b : β}
    (h : Goes (request r >>= f) rs b) :
    ∃ answer rest, rs = (r, answer) :: rest ∧ Goes (f answer) rest b := by
  cases h with
  | ask h => exact ⟨_, _, rfl, h⟩

end Dialogue

namespace Client

open Dialogue

variable {c c' : Client} {o : Outbound} {rs : Transcript} {r : Except BusError Nat}

def noConnection : BusError :=
  .connection "Failed to get connection from pool"

inductive Renews (c : Client) : Transcript → Client → Except BusError Nat → Prop where
  | barred (closed : c.closed = true) :
      Renews c [] c (.error noConnection)
  | unconnected (unclosed : c.closed = false) :
      Renews c [(.connection, false)] c (.error noConnection)
  | unopened (unclosed : c.closed = false) :
      Renews c [(.connection, true), (.call (c.channels + 1) .channelOpen, false)]
        { c with channels := c.channels + 1 } (.error (.connection "Failed to create channel"))
  | unconfirmed (unclosed : c.closed = false) :
      Renews c [(.connection, true), (.call (c.channels + 1) .channelOpen, true),
          (.call (c.channels + 1) .confirmSelect, false)]
        { c with channels := c.channels + 1 }
        (.error (.channel "Failed to enable publisher confirms"))
  | renewed (unclosed : c.closed = false) :
      Renews c [(.connection, true), (.call (c.channels + 1) .channelOpen, true),
          (.call (c.channels + 1) .confirmSelect, true)]
        { c with channels := c.channels + 1, publisher := some (c.channels + 1) }
        (.ok (c.channels + 1))

theorem renews_of_goes (h : Goes c.openPublisher rs (c', r)) : Renews c rs c' r := by
  obtain ⟨before, ⟨c₁, r₁⟩, after, hopen, hpublisher, rfl⟩ := h.of_bind
  unfold openChannel at hopen
  split at hopen
  · next hclosed =>
    obtain ⟨rfl, rfl, rfl⟩ := hopen.of_pure
    obtain ⟨rfl, rfl, rfl⟩ := hpublisher.of_pure
    exact .barred hclosed
  · next hclosed =>
    rw [Bool.not_eq_true] at hclosed
    obtain ⟨connected, opening, rfl, hopening⟩ := hopen.of_request
    cases connected with
    | false =>
      obtain ⟨rfl, rfl, rfl⟩ := hopening.of_pure
      obtain ⟨rfl, rfl, rfl⟩ := hpublisher.of_pure
      exact .unconnected hclosed
    | true =>
      obtain ⟨opened, rest, rfl, hopened⟩ := hopening.of_request
      cases opened with
      | false =>
        obtain ⟨rfl, rfl, rfl⟩ := hopened.of_pure
        obtain ⟨rfl, rfl, rfl⟩ := hpublisher.of_pure
        exact .unopened hclosed
      | true =>
        obtain ⟨rfl, rfl, rfl⟩ := hopened.of_pure
        obtain ⟨confirmed, rest, rfl, hconfirmed⟩ := hpublisher.of_request
        cases confirmed with
        | false =>
          obtain ⟨rfl, rfl, rfl⟩ := hconfirmed.of_pure
          exact .unconfirmed hclosed
        | true =>
          obtain ⟨rfl, rfl, rfl⟩ := hconfirmed.of_pure
          exact .renewed hclosed

inductive Misses (c : Client) : Transcript → Prop where
  | none (publisher : c.publisher = none) : Misses c []
  | lost {channel : Nat} (publisher : c.publisher = some channel) :
      Misses c [(.isOpen channel, false)]

inductive Picks (c : Client) : Transcript → Client → Except BusError Nat → Prop where
  | kept {channel : Nat} (publisher : c.publisher = some channel) :
      Picks c [(.isOpen channel, true)] c (.ok channel)
  | fresh {asked rs : Transcript} {c' : Client} {r : Except BusError Nat} (misses : Misses c asked)
      (renews : Renews c rs c' r) : Picks c (asked ++ rs) c' r

theorem picks_of_goes {logs : List Log.Entry} (h : Goes c.publisherChannel rs (c', r, logs)) :
    Picks c rs c' r := by
  unfold publisherChannel at h
  split at h
  · next hpublisher =>
    obtain ⟨before, ⟨c₁, r₁⟩, after, hrenews, hdone, rfl⟩ := h.of_bind
    obtain ⟨rfl, rfl, hx⟩ := hdone.of_pure
    cases hx
    rw [List.append_nil]
    exact .fresh (.none hpublisher) (renews_of_goes hrenews)
  · next channel hpublisher =>
    obtain ⟨isOpen, rest, rfl, hasked⟩ := h.of_request
    cases isOpen with
    | false =>
      obtain ⟨before, ⟨c₁, r₁⟩, after, hrenews, hdone, rfl⟩ := hasked.of_bind
      obtain ⟨rfl, rfl, hx⟩ := hdone.of_pure
      cases hx
      rw [List.append_nil]
      exact .fresh (.lost hpublisher) (renews_of_goes hrenews)
    | true =>
      obtain ⟨rfl, rfl, hx⟩ := hasked.of_pure
      cases hx
      exact .kept hpublisher

inductive Sends (c : Client) (o : Outbound) : Transcript → Client → Except BusError Nat → Prop where
  | unpicked {rs : Transcript} {c' : Client} {e : BusError} (picks : Picks c rs c' (.error e)) :
      Sends c o rs c' (.error e)
  | published {rs : Transcript} {c' : Client} {channel : Nat}
      (picks : Picks c rs c' (.ok channel)) :
      Sends c o (rs ++ [(.call channel (.basicPublish o), true)]) c' (.ok channel)
  | failed {rs : Transcript} {c' : Client} {channel : Nat} (picks : Picks c rs c' (.ok channel)) :
      Sends c o (rs ++ [(.call channel (.basicPublish o), false)]) { c' with publisher := none }
        (.error (.publish "Failed to publish"))

theorem sends_of_goes {logs : List Log.Entry} (h : Goes (c.send o) rs (c', r, logs)) :
    Sends c o rs c' r := by
  obtain ⟨before, ⟨c₁, r₁, logs₁⟩, after, hpicked, hafter, rfl⟩ := h.of_bind
  have hpicks := picks_of_goes hpicked
  cases r₁ with
  | error e =>
    obtain ⟨rfl, rfl, hx⟩ := hafter.of_pure
    cases hx
    rw [List.append_nil]
    exact .unpicked hpicks
  | ok channel =>
    obtain ⟨published, rest, rfl, hpublished⟩ := hafter.of_request
    cases published with
    | false =>
      obtain ⟨rfl, rfl, hx⟩ := hpublished.of_pure
      cases hx
      exact .failed hpicks
    | true =>
      obtain ⟨rfl, rfl, hx⟩ := hpublished.of_pure
      cases hx
      exact .published hpicks

theorem goes_close {logs : List Log.Entry} (h : Goes c.close rs (c', logs)) :
    c' = { c with publisher := none, closed := true } ∧
      ∀ x ∈ rs, ∃ channel ended, c.publisher = some channel ∧
        x = (.call channel .channelClose, ended) := by
  unfold close at h
  split at h
  · obtain ⟨rfl, rfl, -⟩ := h.of_pure
    exact ⟨rfl, nofun⟩
  · next channel hpublisher =>
    obtain ⟨closed, rest, rfl, hclosed⟩ := h.of_request
    cases closed with
    | false | true =>
      obtain ⟨rfl, rfl, -⟩ := hclosed.of_pure
      exact ⟨rfl, by simpa using hpublisher⟩

inductive Command where
  | send (message : Outbound)
  | close
  deriving DecidableEq, Repr

def act (c : Client) : Command → Dialogue (Client × Option (Except BusError Nat))
  | .send o => do
    let (c, r, _) ← c.send o
    return (c, some r)
  | .close => do
    let (c, _) ← c.close
    return (c, none)

structure Turn where
  command : Command
  requests : Transcript
  reply : Option (Except BusError Nat)

def turns (answer : σ → Request → σ × Bool) : List Command → Client → σ → List Turn
  | [], _, _ => []
  | command :: commands, c, s =>
    let next := (c.act command).run answer s
    ⟨command, (c.act command).transcript answer s, next.2.2⟩ ::
      turns answer commands next.2.1 next.1

inductive Carries (c : Client) : Turn → Client → Prop where
  | send {o : Outbound} {rs : Transcript} {c' : Client} {r : Except BusError Nat}
      (sends : Sends c o rs c' r) : Carries c ⟨.send o, rs, some r⟩ c'
  | close {rs : Transcript}
      (closes : ∀ x ∈ rs, ∃ channel ended, c.publisher = some channel ∧
        x = (.call channel .channelClose, ended)) :
      Carries c ⟨.close, rs, none⟩ { c with publisher := none, closed := true }

theorem carries_of_goes {command : Command} {reply : Option (Except BusError Nat)}
    (h : Goes (c.act command) rs (c', reply)) : Carries c ⟨command, rs, reply⟩ c' := by
  cases command with
  | send o =>
    obtain ⟨before, ⟨c₁, r, logs⟩, after, hsent, hdone, rfl⟩ := h.of_bind
    obtain ⟨rfl, rfl, rfl⟩ := hdone.of_pure
    rw [List.append_nil]
    exact .send (sends_of_goes hsent)
  | close =>
    obtain ⟨before, ⟨c₁, logs⟩, after, hclosed, hdone, rfl⟩ := h.of_bind
    obtain ⟨rfl, rfl, rfl⟩ := hdone.of_pure
    obtain ⟨rfl, hcloses⟩ := goes_close hclosed
    rw [List.append_nil]
    exact .close hcloses

theorem turns_cons (answer : σ → Request → σ × Bool) (command : Command) (commands : List Command)
    (c : Client) (s : σ) : ∃ t c' s', turns answer (command :: commands) c s =
      t :: turns answer commands c' s' ∧ Carries c t c' :=
  ⟨_, _, _, rfl, carries_of_goes (goes_run answer (c.act command) s)⟩

/-- If what a client knows gives `P` of its next turn, and it knows as much after that turn, then
`P` is so of all turns. -/
theorem forall_turns {K : Client → List Turn → Prop} {P : List Turn → Turn → Prop}
    (step : ∀ c before t c', K c before → Carries c t c' → P before t ∧ K c' (before ++ [t]))
    (answer : σ → Request → σ × Bool) (commands : List Command) (s : σ) {past : List Turn}
    (known : K c past) {before after : List Turn} {t : Turn}
    (h : turns answer commands c s = before ++ t :: after) : P (past ++ before) t := by
  induction commands generalizing c s past before with
  | nil => cases before <;> cases h
  | cons command commands ih =>
    obtain ⟨t', c', s', hturns, hcarries⟩ := turns_cons answer command commands c s
    obtain ⟨hhere, hknown⟩ := step c past t' c' known hcarries
    rw [hturns] at h
    cases before with
    | nil =>
      obtain ⟨rfl, -⟩ := List.cons.inj h
      rwa [List.append_nil]
    | cons t₁ before =>
      obtain ⟨rfl, hrest⟩ := List.cons.inj h
      have hlater := ih s' hknown hrest
      rwa [List.append_assoc] at hlater

namespace Turn

def asked (ts : List Turn) : Transcript :=
  ts.flatMap requests

theorem asked_concat (ts : List Turn) (t : Turn) : asked (ts ++ [t]) = asked ts ++ t.requests := by
  simp [asked]

def Once (t : Turn) : Prop :=
  match t.command, t.reply with
  | .send o, some (.ok channel) => published t.requests = [⟨channel, o, true⟩]
  | .send o, some (.error (.publish _)) => ∃ channel, published t.requests = [⟨channel, o, false⟩]
  | .send _, some (.error (.connection _)) => published t.requests = []
  | .send _, some (.error (.channel _)) => published t.requests = []
  | .close, none => published t.requests = []
  | _, _ => False

end Turn

section Carried

theorem Misses.published_eq_nil (h : Misses c rs) : published rs = [] := by
  cases h <;> rfl

theorem Renews.published_eq_nil (h : Renews c rs c' r) : published rs = [] := by
  cases h <;> rfl

theorem Picks.published_eq_nil (h : Picks c rs c' r) : published rs = [] := by
  cases h with
  | kept => rfl
  | fresh misses renews =>
    rw [published_append, misses.published_eq_nil, renews.published_eq_nil, List.append_nil]

theorem Renews.of_error {e : BusError} (h : Renews c rs c' (.error e)) :
    c'.publisher = c.publisher ∧ ((∃ x, e = .connection x) ∨ ∃ x, e = .channel x) := by
  cases h <;> simp [noConnection]

theorem Renews.of_ok {channel : Nat} (h : Renews c rs c' (.ok channel)) :
    channel = c.channels + 1 ∧ rs = [(.connection, true), (.call channel .channelOpen, true),
      (.call channel .confirmSelect, true)] ∧ c'.publisher = some channel := by
  cases h
  exact ⟨rfl, rfl, rfl⟩

theorem Picks.of_error {e : BusError} (h : Picks c rs c' (.error e)) :
    c'.publisher = c.publisher ∧ ((∃ x, e = .connection x) ∨ ∃ x, e = .channel x) := by
  cases h with
  | fresh _ renews => exact renews.of_error

theorem Carries.once {t : Turn} (h : Carries c t c') : t.Once := by
  cases h with
  | close closes =>
    refine List.filterMap_eq_nil_iff.mpr fun x hx => ?_
    obtain ⟨channel, ended, -, rfl⟩ := closes x hx
    rfl
  | send sends =>
    cases sends with
    | unpicked picks =>
      have hnone := picks.published_eq_nil
      obtain ⟨-, ⟨x, rfl⟩ | ⟨x, rfl⟩⟩ := picks.of_error
      · exact hnone
      · exact hnone
    | published picks =>
      rw [Turn.Once, published_append, picks.published_eq_nil]
      rfl
    | @failed _ _ channel picks =>
      refine ⟨channel, ?_⟩
      rw [published_append, picks.published_eq_nil]
      rfl

theorem Picks.of_ok {channel : Nat} (h : Picks c rs c' (.ok channel)) :
    c'.publisher = some channel ∧
      (c.publisher = some channel ∧ c' = c ∧ rs = [(.isOpen channel, true)] ∨
        channel = c.channels + 1 ∧ ∃ asked, Misses c asked ∧
          rs = asked ++ [(.connection, true), (.call channel .channelOpen, true),
            (.call channel .confirmSelect, true)]) := by
  cases h with
  | kept publisher => exact ⟨publisher, .inl ⟨publisher, rfl, rfl⟩⟩
  | fresh misses renews =>
    obtain ⟨hchannel, rfl, hpublisher⟩ := renews.of_ok
    exact ⟨hpublisher, .inr ⟨hchannel, _, misses, rfl⟩⟩

theorem Carries.of_published {t : Turn} {p : Published} (h : Carries c t c')
    (hp : p ∈ published t.requests) : ∃ rs c₁, Picks c rs c₁ (.ok p.channel) ∧
      t = ⟨.send p.message, rs ++ [p.request], some (if p.taken then .ok p.channel else
        .error (.publish "Failed to publish"))⟩ ∧
      c' = if p.taken then c₁ else { c₁ with publisher := none } := by
  have honce := h.once
  cases h with
  | close =>
    rw [show published _ = [] from honce] at hp
    cases hp
  | send sends =>
    cases sends with
    | unpicked picks =>
      rw [picks.published_eq_nil] at hp
      cases hp
    | published picks | failed picks =>
      rw [published_append, picks.published_eq_nil] at hp
      obtain rfl := List.mem_singleton.mp hp
      exact ⟨_, _, picks, rfl, rfl⟩

theorem Renews.channels_le (h : Renews c rs c' r) : c.channels ≤ c'.channels := by
  cases h with
  | barred | unconnected => exact Nat.le_refl _
  | unopened | unconfirmed | renewed => exact Nat.le_succ _

theorem Renews.channel_le (h : Renews c rs c' r) :
    ∀ x ∈ rs, ∀ channel, x.1.channel? = some channel → channel ≤ c'.channels := by
  cases h <;> simp [Request.channel?]

theorem Renews.closed_eq (h : Renews c rs c' r) : c'.closed = c.closed := by
  cases h <;> rfl

theorem Misses.channel_eq (h : Misses c rs) :
    ∀ x ∈ rs, ∀ channel, x.1.channel? = some channel → c.publisher = some channel := by
  cases h with
  | none => nofun
  | lost publisher => simp [Request.channel?, publisher]

theorem Picks.closed_eq (h : Picks c rs c' r) : c'.closed = c.closed := by
  cases h with
  | kept => rfl
  | fresh _ renews => exact renews.closed_eq

theorem Picks.channels_le (h : Picks c rs c' r) : c.channels ≤ c'.channels := by
  cases h with
  | kept => exact Nat.le_refl _
  | fresh _ renews => exact renews.channels_le

theorem Picks.channel_le (h : Picks c rs c' r)
    (numbered : ∀ channel, c.publisher = some channel → channel ≤ c.channels) :
    ∀ x ∈ rs, ∀ channel, x.1.channel? = some channel → channel ≤ c'.channels := by
  intro x hx channel hchannel
  cases h with
  | kept publisher =>
    obtain rfl := List.mem_singleton.mp hx
    obtain rfl := Option.some.inj hchannel
    exact numbered _ publisher
  | fresh misses renews =>
    rcases List.mem_append.mp hx with hx | hx
    · exact Nat.le_trans (numbered _ (misses.channel_eq x hx channel hchannel)) renews.channels_le
    · exact renews.channel_le x hx channel hchannel

theorem Picks.picked_le {channel : Nat} (h : Picks c rs c' (.ok channel))
    (numbered : ∀ channel, c.publisher = some channel → channel ≤ c.channels) :
    channel ≤ c'.channels := by
  obtain ⟨-, ⟨hpublisher, rfl, -⟩ | ⟨-, asked, -, rfl⟩⟩ := h.of_ok
  · exact numbered _ hpublisher
  · exact h.channel_le numbered (.call channel .channelOpen, true) (by simp) channel rfl

theorem Picks.of_closed (h : Picks c rs c' r) (closed : c.closed = true)
    (publisher : c.publisher = none) : rs = [] ∧ c' = c ∧
      r = .error noConnection := by
  cases h with
  | kept hpublisher => cases publisher.symm.trans hpublisher
  | fresh misses renews =>
    cases misses with
    | lost hpublisher => cases publisher.symm.trans hpublisher
    | none =>
      cases renews with
      | barred => exact ⟨rfl, rfl, rfl⟩
      | unconnected unclosed | unopened unclosed | unconfirmed unclosed | renewed unclosed =>
        cases closed.symm.trans unclosed

theorem Sends.of_closed (h : Sends c o rs c' r) (closed : c.closed = true)
    (publisher : c.publisher = none) : rs = [] ∧ c' = c ∧
      r = .error noConnection := by
  cases h with
  | unpicked picks => exact picks.of_closed closed publisher
  | published picks | failed picks => cases (picks.of_closed closed publisher).2.2

theorem Carries.channels_le {t : Turn} (h : Carries c t c') : c.channels ≤ c'.channels := by
  cases h with
  | close => exact Nat.le_refl _
  | send sends =>
    cases sends with
    | unpicked picks | published picks | failed picks => exact picks.channels_le

theorem Carries.channel_le {t : Turn} (h : Carries c t c')
    (numbered : ∀ channel, c.publisher = some channel → channel ≤ c.channels) :
    ∀ x ∈ t.requests, ∀ channel, x.1.channel? = some channel → channel ≤ c'.channels := by
  intro x hx channel hchannel
  cases h with
  | close closes =>
    obtain ⟨_, ended, hpublisher, rfl⟩ := closes x hx
    obtain rfl := Option.some.inj hchannel
    exact numbered _ hpublisher
  | send sends =>
    cases sends with
    | unpicked picks => exact picks.channel_le numbered x hx channel hchannel
    | published picks | failed picks =>
      rcases List.mem_append.mp hx with hx | hx
      · exact picks.channel_le numbered x hx channel hchannel
      · obtain rfl := List.mem_singleton.mp hx
        obtain rfl := Option.some.inj hchannel
        exact picks.picked_le numbered

theorem Carries.closed_iff {t : Turn} (h : Carries c t c') :
    c'.closed = true ↔ c.closed = true ∨ t.command = .close := by
  cases h with
  | close => simp
  | send sends =>
    cases sends with
    | unpicked picks | published picks | failed picks => simp [picks.closed_eq]

theorem Carries.publisher_eq_of_ok {t : Turn} {channel : Nat} (h : Carries c t c')
    (hreply : t.reply = some (.ok channel)) : c'.publisher = some channel := by
  cases h with
  | close => cases hreply
  | send sends =>
    cases sends with
    | unpicked | failed => cases hreply
    | published picks =>
      cases hreply
      exact picks.of_ok.1

theorem Carries.of_publisher {t : Turn} {channel : Nat} (h : Carries c t c')
    (hpublisher : c'.publisher = some channel) :
    (c.publisher = some channel ∨
      channel = c.channels + 1 ∧ (.call channel .confirmSelect, true) ∈ t.requests) ∧
    ∀ p ∈ published t.requests, p.taken = true := by
  refine ⟨?_, fun p hp => ?_⟩
  · cases h with
    | close => cases hpublisher
    | send sends =>
      cases sends with
      | failed => cases hpublisher
      | unpicked picks => exact .inl (picks.of_error.1 ▸ hpublisher)
      | published picks =>
        obtain ⟨hkept, ⟨hbefore, -, -⟩ | ⟨hnew, asked, -, rfl⟩⟩ := picks.of_ok
        · exact .inl (hbefore.trans (hkept.symm.trans hpublisher))
        · obtain rfl := Option.some.inj (hkept.symm.trans hpublisher)
          exact .inr ⟨hnew, by simp⟩
  · obtain ⟨rs, c₁, -, -, rfl⟩ := h.of_published hp
    cases htaken : p.taken with
    | true => rfl
    | false =>
      rw [htaken] at hpublisher
      cases hpublisher

end Carried

structure Knows (c : Client) (before : List Turn) : Prop where
  numbered : ∀ x ∈ Turn.asked before, ∀ channel, x.1.channel? = some channel →
    channel ≤ c.channels
  confirmed : ∀ channel, c.publisher = some channel →
    (.call channel .confirmSelect, true) ∈ Turn.asked before
  unfailed : ∀ channel o, c.publisher = some channel →
    ⟨channel, o, false⟩ ∉ published (Turn.asked before)
  closed : c.closed = true ↔ ∃ t ∈ before, t.command = .close
  barred : c.closed = true → c.publisher = none
  kept : ∀ t channel, before.getLast? = some t → t.reply = some (.ok channel) →
    c.publisher = some channel
  cleared : ∀ t p, before.getLast? = some t → p ∈ published t.requests → p.taken = false →
    c.publisher = none ∧ c.closed = false

theorem knows_nil : Knows {} [] where
  numbered := nofun
  confirmed := nofun
  unfailed := nofun
  closed := by simp
  barred := nofun
  kept := nofun
  cleared := nofun

section Knows

variable {before : List Turn} {t : Turn}

theorem Knows.publisher_le (h : Knows c before) :
    ∀ channel, c.publisher = some channel → channel ≤ c.channels :=
  fun channel hpublisher => h.numbered _ (h.confirmed channel hpublisher) channel rfl

theorem Knows.unused (h : Knows c before) : ∀ x ∈ Turn.asked before,
    x.1.channel? ≠ some (c.channels + 1) := by
  intro x hx hchannel
  have hle := h.numbered x hx _ hchannel
  omega

theorem Knows.unclosed_of_ok {rs : Transcript} {channel : Nat} (h : Knows c before)
    (hpicks : Picks c rs c' (.ok channel)) : c.closed = false := by
  cases hclosed : c.closed with
  | false => rfl
  | true =>
    cases (hpicks.of_closed hclosed (h.barred hclosed)).2.2

theorem Knows.carries (h : Knows c before) (hcarries : Carries c t c') :
    Knows c' (before ++ [t]) where
  numbered x hx channel hchannel := by
    rw [Turn.asked_concat] at hx
    rcases List.mem_append.mp hx with hx | hx
    · exact Nat.le_trans (h.numbered x hx channel hchannel) hcarries.channels_le
    · exact hcarries.channel_le h.publisher_le x hx channel hchannel
  confirmed channel hpublisher := by
    rw [Turn.asked_concat]
    rcases (hcarries.of_publisher hpublisher).1 with hbefore | ⟨-, hconfirmed⟩
    · exact List.mem_append_left _ (h.confirmed channel hbefore)
    · exact List.mem_append_right _ hconfirmed
  unfailed channel o hpublisher hfailed := by
    obtain ⟨hkept, htaken⟩ := hcarries.of_publisher hpublisher
    -- a channel that refused something is not kept, and a fresh one has a number of its own
    rw [Turn.asked_concat, published_append] at hfailed
    rcases List.mem_append.mp hfailed with hfailed | hfailed
    · rcases hkept with hbefore | ⟨rfl, -⟩
      · exact h.unfailed channel o hbefore hfailed
      · exact h.unused _ (mem_published.mp hfailed) rfl
    · cases htaken _ hfailed
  closed := by
    rw [hcarries.closed_iff, h.closed]
    simp [or_and_right, exists_or]
  barred hclosed := by
    cases hcarries with
    | close => rfl
    | send sends =>
      have hbefore : c.closed = true := by simpa using (Carries.send sends).closed_iff.mp hclosed
      obtain ⟨-, rfl, -⟩ := sends.of_closed hbefore (h.barred hbefore)
      exact h.barred hbefore
  kept t' channel hlast hreply := by
    rw [List.getLast?_concat] at hlast
    obtain rfl := Option.some.inj hlast
    exact hcarries.publisher_eq_of_ok hreply
  cleared t' p hlast hp hfailed := by
    rw [List.getLast?_concat] at hlast
    obtain rfl := Option.some.inj hlast
    obtain ⟨rs, c₁, hpicks, -, rfl⟩ := hcarries.of_published hp
    rw [hfailed]
    exact ⟨rfl, hpicks.closed_eq.trans (h.unclosed_of_ok hpicks)⟩

end Knows

namespace Turn

structure Sound (before : List Turn) (t : Turn) : Prop where
  confirmed : ∀ p ∈ published t.requests, ∃ rs x, t.requests = rs ++ [x, p.request] ∧
    (x = (.isOpen p.channel, true) ∧ (.call p.channel .confirmSelect, true) ∈ asked before ∨
      x = (.call p.channel .confirmSelect, true))
  once : t.Once
  reuses : ∀ t' channel o, before.getLast? = some t' → t'.reply = some (.ok channel) →
    t.command = .send o → ∃ isOpen rest, t.requests = (.isOpen channel, isOpen) :: rest ∧
      (isOpen = true → ∃ taken, rest = [(.call channel (.basicPublish o), taken)])
  abandons : ∀ channel o, ⟨channel, o, false⟩ ∈ published (asked before) →
    ∀ p ∈ published t.requests, p.channel ≠ channel
  recovers : ∀ t' p o, before.getLast? = some t' → p ∈ published t'.requests → p.taken = false →
    t.command = .send o → ∃ connected rest, t.requests = (.connection, connected) :: rest
  replaces : ∀ channel, (.isOpen channel, false) ∈ t.requests →
    (∃ connected rest, t.requests = (.isOpen channel, false) :: (.connection, connected) :: rest) ∧
    ∀ p ∈ published t.requests, p.channel ≠ channel
  barred : ∀ o, (∃ t' ∈ before, t'.command = .close) → t.command = .send o → t.requests = [] ∧
    t.reply = some (.error noConnection)
  renews : ∀ connected, (.connection, connected) ∈ t.requests → ∀ p ∈ published t.requests,
    (.call p.channel .channelOpen, true) ∈ t.requests ∧
      ∀ x ∈ asked before, x.1.channel? ≠ some p.channel
  succeeds : ∀ o, (∀ t' ∈ before, t'.command ≠ .close) → t.command = .send o →
    (∀ x ∈ t.requests, x.2 = true ∨ ∃ channel, x.1 = .isOpen channel) →
    ∃ channel, t.reply = some (.ok channel)

end Turn

section Turns

variable {before : List Turn} {t : Turn}

theorem Renews.of_unclosed (h : Renews c rs c' r) (unclosed : c.closed = false) :
    ∃ connected rest, rs = (.connection, connected) :: rest := by
  cases h with
  | barred closed => cases unclosed.symm.trans closed
  | unconnected | unopened | unconfirmed | renewed => exact ⟨_, _, rfl⟩

theorem Renews.refused {e : BusError} (h : Renews c rs c' (.error e))
    (unclosed : c.closed = false) :
    ∃ x ∈ rs, x.2 = false ∧ ∀ channel, x.1 ≠ .isOpen channel := by
  cases h with
  | barred closed => cases unclosed.symm.trans closed
  | unconnected | unopened | unconfirmed => simp

theorem Renews.not_isOpen (h : Renews c rs c' r) (channel : Nat) (isOpen : Bool) :
    (.isOpen channel, isOpen) ∉ rs := by
  cases h <;> simp

theorem Picks.of_lost {channel : Nat} (h : Picks c rs c' r)
    (hlost : (.isOpen channel, false) ∈ rs) : c.publisher = some channel := by
  cases h with
  | kept => simp at hlost
  | fresh misses renews =>
    rcases List.mem_append.mp hlost with hlost | hlost
    · exact misses.channel_eq _ hlost channel rfl
    · exact absurd hlost (renews.not_isOpen channel false)

theorem Picks.of_publisher {channel : Nat} (h : Picks c rs c' r) (unclosed : c.closed = false)
    (publisher : c.publisher = some channel) :
    (rs = [(.isOpen channel, true)] ∧ r = .ok channel) ∨
      ∃ connected rest, rs = (.isOpen channel, false) :: (.connection, connected) :: rest := by
  cases h with
  | kept hkept =>
    obtain rfl := Option.some.inj (publisher.symm.trans hkept)
    exact .inl ⟨rfl, rfl⟩
  | fresh misses renews =>
    cases misses with
    | none hnone => cases publisher.symm.trans hnone
    | lost hkept =>
      obtain rfl := Option.some.inj (publisher.symm.trans hkept)
      obtain ⟨connected, rest, rfl⟩ := renews.of_unclosed unclosed
      exact .inr ⟨connected, rest, rfl⟩

theorem Picks.of_none (h : Picks c rs c' r) (unclosed : c.closed = false)
    (publisher : c.publisher = none) : ∃ connected rest, rs = (.connection, connected) :: rest := by
  cases h with
  | kept hkept => cases publisher.symm.trans hkept
  | fresh misses renews =>
    cases misses with
    | none => exact renews.of_unclosed unclosed
    | lost hkept => cases publisher.symm.trans hkept

theorem Sends.of_publisher {channel : Nat} (h : Sends c o rs c' r) (unclosed : c.closed = false)
    (publisher : c.publisher = some channel) :
    (∃ taken, rs = [(.isOpen channel, true), (.call channel (.basicPublish o), taken)]) ∨
      ∃ connected rest, rs = (.isOpen channel, false) :: (.connection, connected) :: rest := by
  cases h with
  | unpicked picks =>
    rcases picks.of_publisher unclosed publisher with ⟨-, hr⟩ | hlost
    · cases hr
    · exact .inr hlost
  | published picks | failed picks =>
    rcases picks.of_publisher unclosed publisher with ⟨rfl, hr⟩ | ⟨connected, rest, rfl⟩
    · obtain rfl := Except.ok.inj hr
      exact .inl ⟨_, rfl⟩
    · exact .inr ⟨connected, _, rfl⟩

theorem Sends.of_none (h : Sends c o rs c' r) (unclosed : c.closed = false)
    (publisher : c.publisher = none) : ∃ connected rest, rs = (.connection, connected) :: rest := by
  cases h with
  | unpicked picks => exact picks.of_none unclosed publisher
  | published picks | failed picks =>
    obtain ⟨connected, rest, rfl⟩ := picks.of_none unclosed publisher
    exact ⟨connected, _, rfl⟩

theorem Knows.unclosed_of_publisher {channel : Nat} (h : Knows c before)
    (publisher : c.publisher = some channel) : c.closed = false := by
  cases hclosed : c.closed with
  | false => rfl
  | true => cases publisher.symm.trans (h.barred hclosed)

theorem Carries.of_lost {channel : Nat} (h : Carries c t c')
    (hlost : (.isOpen channel, false) ∈ t.requests) :
    c.publisher = some channel ∧ ∃ o r, Sends c o t.requests c' r := by
  cases h with
  | close closes =>
    obtain ⟨_, _, -, hx⟩ := closes _ hlost
    cases hx
  | send sends =>
    refine ⟨?_, _, _, sends⟩
    cases sends with
    | unpicked picks => exact picks.of_lost hlost
    | published picks | failed picks => exact picks.of_lost (by simpa using hlost)

theorem Knows.replaces {channel : Nat} (h : Knows c before) (hcarries : Carries c t c')
    (hlost : (.isOpen channel, false) ∈ t.requests) :
    (∃ connected rest, t.requests = (.isOpen channel, false) :: (.connection, connected) :: rest) ∧
    ∀ p ∈ published t.requests, p.channel ≠ channel := by
  obtain ⟨hpublisher, o, r, hsends⟩ := hcarries.of_lost hlost
  have hunclosed := h.unclosed_of_publisher hpublisher
  constructor
  · rcases hsends.of_publisher hunclosed hpublisher with ⟨taken, hkept⟩ | hasked
    · simp [hkept] at hlost
    · exact hasked
  · intro p hp hchannel
    obtain ⟨rs, c₁, hpicks, rfl, -⟩ := hcarries.of_published hp
    obtain ⟨-, ⟨-, -, rfl⟩ | ⟨hnew, -⟩⟩ := hpicks.of_ok
    · simp [Published.request] at hlost
    · have hle := h.publisher_le channel hpublisher
      omega

theorem Knows.sound (h : Knows c before) (hcarries : Carries c t c') : t.Sound before where
  confirmed p hp := by
    obtain ⟨rs, c₁, hpicks, rfl, -⟩ := hcarries.of_published hp
    obtain ⟨-, ⟨hpublisher, -, rfl⟩ | ⟨-, asked, -, rfl⟩⟩ := hpicks.of_ok
    · exact ⟨[], _, rfl, .inl ⟨rfl, h.confirmed _ hpublisher⟩⟩
    · exact ⟨asked ++ [(.connection, true), (.call p.channel .channelOpen, true)],
        (.call p.channel .confirmSelect, true), by simp, .inr rfl⟩
  once := hcarries.once
  reuses t' channel o hlast hreply hsend := by
    have hpublisher := h.kept t' channel hlast hreply
    cases hcarries with
    | close => cases hsend
    | send sends =>
      obtain rfl := Command.send.inj hsend
      rcases sends.of_publisher (h.unclosed_of_publisher hpublisher) hpublisher with
        ⟨taken, rfl⟩ | ⟨connected, rest, rfl⟩
      · exact ⟨true, _, rfl, fun _ => ⟨taken, rfl⟩⟩
      · exact ⟨false, _, rfl, nofun⟩
  abandons channel o hfailed p hp hchannel := by
    obtain ⟨rs, c₁, hpicks, -, -⟩ := hcarries.of_published hp
    rw [hchannel] at hpicks
    obtain ⟨-, ⟨hpublisher, -, -⟩ | ⟨rfl, -⟩⟩ := hpicks.of_ok
    · exact h.unfailed channel o hpublisher hfailed
    · exact h.unused _ (mem_published.mp hfailed) rfl
  recovers t' p o hlast hp hfailed hsend := by
    obtain ⟨hnone, hunclosed⟩ := h.cleared t' p hlast hp hfailed
    cases hcarries with
    | close => cases hsend
    | send sends => exact sends.of_none hunclosed hnone
  replaces channel hlost := h.replaces hcarries hlost
  barred o hclosed hsend := by
    have hbarred := h.closed.mpr hclosed
    cases hcarries with
    | close => cases hsend
    | send sends =>
      obtain ⟨rfl, -, rfl⟩ := sends.of_closed hbarred (h.barred hbarred)
      exact ⟨rfl, rfl⟩
  renews connected hconnected p hp := by
    obtain ⟨rs, c₁, hpicks, rfl, -⟩ := hcarries.of_published hp
    obtain ⟨-, ⟨-, -, rfl⟩ | ⟨hnew, asked, -, rfl⟩⟩ := hpicks.of_ok
    · simp [Published.request] at hconnected
    · refine ⟨by simp, ?_⟩
      rw [hnew]
      exact h.unused
  succeeds o hopen hsend hgranted := by
    have hunclosed : c.closed = false := by
      rw [Bool.eq_false_iff]
      intro hclosed
      obtain ⟨t', ht', hclose⟩ := h.closed.mp hclosed
      exact hopen t' ht' hclose
    cases hcarries with
    | close => cases hsend
    | send sends =>
      cases sends with
      | published => exact ⟨_, rfl⟩
      | failed picks =>
        have hlast := hgranted _ (List.mem_append_right _ (.head _))
        simp at hlast
      | unpicked picks =>
        cases picks with
        | fresh misses renews =>
          obtain ⟨x, hx, hrefused, hother⟩ := renews.refused hunclosed
          rcases hgranted x (List.mem_append_right _ hx) with htrue | ⟨channel, hisOpen⟩
          · cases hrefused.symm.trans htrue
          · exact absurd hisOpen (hother channel)

end Turns

theorem map_command_turns (answer : σ → Request → σ × Bool) (commands : List Command) (c : Client)
    (s : σ) : (turns answer commands c s).map Turn.command = commands := by
  induction commands generalizing c s with
  | nil => rfl
  | cons command commands ih =>
    rw [turns, List.map_cons, ih]

structure SoundTurns (commands : List Command) (ts : List Turn) : Prop where
  commands : ts.map Turn.command = commands
  sound : ∀ before t after, ts = before ++ t :: after → t.Sound before

/-- A client publishes soundly, whatever is answered to its requests. -/
theorem soundTurns (answer : σ → Request → σ × Bool) (s : σ) (commands : List Command) :
    SoundTurns commands (turns answer commands {} s) where
  commands := map_command_turns answer commands {} s
  sound _ _ _ h :=
    forall_turns (fun _ _ _ _ known carries => ⟨known.sound carries, known.carries carries⟩)
      answer commands s knows_nil h

end Client
end OutcomeRelay.Amqp
