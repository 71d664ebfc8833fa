import OutcomeRelay.Retry.Policy

/-!
Which retry settings make a policy, and which policy they make. A factor is a number of 24 bits; it
is accepted if it is finite and its exact value is one or more.
-/

namespace OutcomeRelay.RetryConfig

structure Sound (c : RetryConfig) : Prop where
  attempts : 1 ≤ c.maxAttempts
  growing : ∃ m e, c.multiplier = .finite false m e ∧ Nat.pow 2 (-e).toNat ≤ m * Nat.pow 2 e.toNat
  ordered : c.initialIntervalMs ≤ c.maxIntervalMs

structure Makes (c : RetryConfig) (p : RetryPolicy) : Prop where
  maxAttempts : p.maxAttempts = c.maxAttempts
  initialInterval : p.initialInterval = c.initialIntervalMs * 1000000
  multiplier : p.multiplier = c.multiplier
  maxInterval : p.maxInterval = c.maxIntervalMs * 1000000

theorem grows_iff (c : RetryConfig) :
    c.grows ↔ ∃ m e, c.multiplier = .finite false m e ∧
      Nat.pow 2 (-e).toNat ≤ m * Nat.pow 2 e.toNat := by
  have hone : Binary.ofNat .single 1 = .finite false 8388608 (-23) := by decide
  unfold grows
  rw [hone]
  generalize c.multiplier = x
  cases x with
  | infinite | nan => simp [Binary.isFinite]
  | finite s m e =>
    have hpos : 0 < Nat.pow 2 (-e).toNat := Nat.two_pow_pos _
    have hfraction : Binary.fraction false 8388608 (-23) = (8388608, 8388608) := by decide
    -- both sides have the denominator of one as a factor
    have hlt : Binary.lt (.finite s m e) (.finite false 8388608 (-23)) = false ↔
        ((Nat.pow 2 (-e).toNat : Nat) : Int) ≤
          (if s then -1 else 1) * ((m * Nat.pow 2 e.toNat : Nat) : Int) := by
      simp only [Binary.lt, hfraction, decide_eq_false_iff_not, Int.not_lt]
      change (8388608 : Int) * ((Nat.pow 2 (-e).toNat : Nat) : Int) ≤
        (if s then -1 else 1) * ((m * Nat.pow 2 e.toNat : Nat) : Int) * 8388608 ↔ _
      generalize ((Nat.pow 2 (-e).toNat : Nat) : Int) = den
      generalize (if s then (-1 : Int) else 1) * ((m * Nat.pow 2 e.toNat : Nat) : Int) = num
      omega
    rw [Binary.isFinite, Bool.true_and, Bool.not_eq_true', hlt]
    cases s
    · simp only [Bool.false_eq_true, if_false, Int.one_mul]
      constructor
      · intro h
        exact ⟨m, e, rfl, Int.ofNat_le.mp h⟩
      · rintro ⟨_, _, ⟨⟩, h⟩
        exact Int.ofNat_le.mpr h
    · simp only [if_true]
      constructor
      · intro h
        omega
      · rintro ⟨_, _, ⟨⟩, _⟩

theorem toPolicy?_eq_ok_iff {c : RetryConfig} {p : RetryPolicy} :
    c.toPolicy? = .ok p ↔ c.Sound ∧ c.Makes p := by
  unfold toPolicy?
  split
  · next attempts => exact ⟨nofun, fun h => absurd h.1.attempts (by omega)⟩
  split
  · next shrinks =>
    refine ⟨nofun, fun h => ?_⟩
    rw [(grows_iff c).mpr h.1.growing] at shrinks
    cases shrinks
  split
  · next order => exact ⟨nofun, fun h => absurd h.1.ordered (Nat.not_le_of_lt order)⟩
  · next attempts shrinks order =>
    have hsound : c.Sound :=
      ⟨Nat.pos_of_ne_zero attempts, (grows_iff c).mp (by simpa using shrinks),
        Nat.le_of_not_lt order⟩
    constructor
    · intro h
      obtain rfl := Except.ok.inj h
      exact ⟨hsound, rfl, rfl, rfl, rfl⟩
    · rintro ⟨-, hattempts, hinitial, hmultiplier, hmax⟩
      obtain ⟨attempts', initial', multiplier', max', _, _⟩ := p
      subst hattempts hinitial hmultiplier hmax
      rfl

theorem exists_toPolicy?_iff {c : RetryConfig} : (∃ p, c.toPolicy? = .ok p) ↔ c.Sound := by
  constructor
  · rintro ⟨p, hp⟩
    exact (toPolicy?_eq_ok_iff.mp hp).1
  · intro h
    exact ⟨⟨c.maxAttempts, c.initialIntervalMs * 1000000, c.multiplier, c.maxIntervalMs * 1000000,
      h.attempts, Nat.mul_le_mul_right _ h.ordered⟩,
      toPolicy?_eq_ok_iff.mpr ⟨h, rfl, rfl, rfl, rfl⟩⟩

end OutcomeRelay.RetryConfig
