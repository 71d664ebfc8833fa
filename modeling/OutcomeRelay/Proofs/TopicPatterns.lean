import Mathlib.Data.List.Forall2
import OutcomeRelay.Proofs.TopicKeys
import OutcomeRelay.Topology.Basic

/-!
The matcher decides the pattern language, and an exchange selects the bindings that take a key: a
topic exchange by the words of the pattern, a direct one by the same key. A pattern takes a key if
the words of the key can be cut into segments, one for each word of the pattern.
-/

namespace OutcomeRelay

namespace Pattern

theorem matchWords_many (ps ks : List Word) :
    matchWords (many :: ps) ks = true ↔ ∃ segment rest, ks = segment ++ rest ∧
      matchWords ps rest = true := by
  rw [matchWords.eq_def]
  simp only [if_pos, List.any_eq_true]
  constructor
  · rintro ⟨n, -, hrest⟩
    exact ⟨ks.take n, ks.drop n, (List.take_append_drop n ks).symm, hrest⟩
  · rintro ⟨segment, rest, rfl, hrest⟩
    refine ⟨segment.length, ?_, by simpa using hrest⟩
    rw [List.mem_range, List.length_append]
    omega

theorem matchWords_word {p k : Word} {ps ks : List Word} (h : p = one ∨ p = k)
    (hrest : matchWords ps ks = true) : matchWords (p :: ps) (k :: ks) = true := by
  by_cases hmany : p = many
  · subst hmany
    exact (matchWords_many ps (k :: ks)).mpr ⟨[k], ks, rfl, hrest⟩
  · rw [matchWords, if_neg hmany]
    simpa [hrest] using h

theorem matchWords_of_matches {ps ks : List Word} (h : Matches ps ks) :
    matchWords ps ks = true := by
  induction h with
  | nil => rfl
  | many segment _ ih => exact (matchWords_many _ _).mpr ⟨segment, _, rfl, ih⟩
  | one k _ ih => exact matchWords_word (.inl rfl) ih
  | word w _ ih => exact matchWords_word (.inr rfl) ih

theorem matches_of_matchWords {ps ks : List Word} (h : matchWords ps ks = true) :
    Matches ps ks := by
  induction ps generalizing ks with
  | nil =>
    have hnil : ks = [] := by simpa [matchWords] using h
    exact hnil ▸ .nil
  | cons p ps ih =>
    by_cases hmany : p = many
    · subst hmany
      obtain ⟨segment, rest, rfl, hrest⟩ := (matchWords_many ps ks).mp h
      exact .many segment (ih hrest)
    · rw [matchWords.eq_def] at h
      simp only [if_neg hmany] at h
      cases ks with
      | nil => cases h
      | cons k ks =>
        have hboth : (p = one ∨ p = k) ∧ matchWords ps ks = true := by simpa using h
        obtain ⟨rfl | rfl, hrest⟩ := hboth
        · exact .one k (ih hrest)
        · exact .word p (ih hrest)

theorem matchWords_iff_matches (ps ks : List Word) : matchWords ps ks = true ↔ Matches ps ks :=
  ⟨matches_of_matchWords, matchWords_of_matches⟩

instance (ps ks : List Word) : Decidable (Matches ps ks) :=
  decidable_of_iff _ (matchWords_iff_matches ps ks)

def Takes (p : Word) (segment : List Word) : Prop :=
  if p = many then True
  else if p = one then segment.length = 1
  else segment = [p]

theorem takes_many (segment : List Word) : Takes many segment := by
  rw [Takes, if_pos rfl]
  trivial

theorem takes_one_iff (segment : List Word) : Takes one segment ↔ ∃ k, segment = [k] := by
  have hne : one ≠ many := by decide
  rw [Takes, if_neg hne, if_pos rfl, List.length_eq_one_iff]

theorem takes_word_iff {p : Word} (hmany : p ≠ many) (hone : p ≠ one) (segment : List Word) :
    Takes p segment ↔ segment = [p] := by
  rw [Takes, if_neg hmany, if_neg hone]

theorem takes_self (w : Word) : Takes w [w] := by
  by_cases hmany : w = many
  · exact hmany ▸ takes_many _
  by_cases hone : w = one
  · exact hone ▸ (takes_one_iff _).mpr ⟨_, rfl⟩
  · exact (takes_word_iff hmany hone _).mpr rfl

theorem matches_of_takes {p : Word} {segment ps ks : List Word} (htakes : Takes p segment)
    (h : Matches ps ks) : Matches (p :: ps) (segment ++ ks) := by
  by_cases hmany : p = many
  · exact hmany ▸ .many segment h
  by_cases hone : p = one
  · subst hone
    obtain ⟨k, rfl⟩ := (takes_one_iff segment).mp htakes
    exact .one k h
  · obtain rfl := (takes_word_iff hmany hone segment).mp htakes
    exact .word p h

theorem matches_iff_segments (ps ks : List Word) :
    Matches ps ks ↔ ∃ segments : List (List Word),
      segments.flatten = ks ∧ List.Forall₂ Takes ps segments := by
  constructor
  · intro h
    induction h with
    | nil => exact ⟨[], rfl, .nil⟩
    | many segment _ ih =>
      obtain ⟨segments, rfl, htakes⟩ := ih
      exact ⟨segment :: segments, rfl, .cons (takes_many segment) htakes⟩
    | one k _ ih =>
      obtain ⟨segments, rfl, htakes⟩ := ih
      exact ⟨[k] :: segments, rfl, .cons ((takes_one_iff _).mpr ⟨k, rfl⟩) htakes⟩
    | word w _ ih =>
      obtain ⟨segments, rfl, htakes⟩ := ih
      exact ⟨[w] :: segments, rfl, .cons (takes_self w) htakes⟩
  · rintro ⟨segments, rfl, htakes⟩
    induction htakes with
    | nil => exact .nil
    | cons head _ ih => exact matches_of_takes head ih

/-- A pattern matches a key exactly if the words of the key can be cut into segments, one for each
word of the pattern; without wildcards it matches itself alone, as at a direct exchange. -/
theorem matchesKey_iff_segments (pattern key : String) :
    (matchesKey pattern key = true ↔ ∃ segments : List (List Word),
      segments.flatten = key.toList.splitOn '.' ∧
        List.Forall₂ Takes (pattern.toList.splitOn '.') segments) ∧
    (Literal pattern → (matchesKey pattern key = true ↔ pattern = key) ∧
      ExchangeKind.topic.selects pattern key = ExchangeKind.direct.selects pattern key) := by
  constructor
  · rw [← words_eq_splitOn, ← words_eq_splitOn]
    exact (matchWords_iff_matches _ _).trans (matches_iff_segments _ _)
  · intro hliteral
    have hmatches := matchesKey_literal hliteral key
    refine ⟨by rw [hmatches, decide_eq_true_iff], ?_⟩
    rw [ExchangeKind.selects, ExchangeKind.selects, hmatches, Bool.eq_iff_iff, decide_eq_true_iff,
      beq_iff_eq]

end Pattern

namespace ExchangeKind

def Takes : ExchangeKind → String → String → Prop
  | .topic, pattern, key =>
    Pattern.Matches (Pattern.words pattern.toList) (Pattern.words key.toList)
  | .direct, bindingKey, key => bindingKey = key

theorem selects_iff (kind : ExchangeKind) (bindingKey key : String) :
    kind.selects bindingKey key = true ↔ kind.Takes bindingKey key := by
  cases kind with
  | topic => exact Pattern.matchWords_iff_matches _ _
  | direct => exact beq_iff_eq

instance (kind : ExchangeKind) (bindingKey key : String) : Decidable (kind.Takes bindingKey key) :=
  decidable_of_iff _ (kind.selects_iff bindingKey key)

end ExchangeKind
end OutcomeRelay
