import Mathlib.Data.List.Infix
import OutcomeRelay.Amqp.Client
import OutcomeRelay.CommandLine.Service

/-!
Redacted addresses hide credentials. What stands between the first scheme mark and the last at sign
after it leaves no trace, whatever it is made of, in a redacted address and so in the log. Addresses
without a mark or without an at sign behind it stay as they are, and so do redacted ones.
-/

namespace OutcomeRelay

namespace Address

/-- The mark does not overlap itself, so one that begins in a scheme ends there. -/
theorem prefix_of_prefix_append {scheme rest : List Char} (hne : scheme ≠ [])
    (h : mark <+: scheme ++ mark ++ rest) : mark <+: scheme := by
  rcases scheme with _ | ⟨a, _ | ⟨b, _ | ⟨c, scheme⟩⟩⟩
  · exact absurd rfl hne
  · simp [mark] at h
  · simp [mark] at h
  · simpa [mark] using h

theorem cutScheme_of_unmarked {cs : List Char} (h : ¬ mark <:+: cs) : cutScheme cs = none := by
  induction cs with
  | nil => rfl
  | cons c cs ih =>
    rw [List.infix_cons_iff, not_or, ← List.isPrefixOf_iff_prefix] at h
    rw [cutScheme, if_neg h.1, ih h.2]
    rfl

theorem cutScheme_append {scheme : List Char} (h : ¬ mark <:+: scheme) (rest : List Char) :
    cutScheme (scheme ++ mark ++ rest) = some (scheme, rest) := by
  induction scheme with
  | nil => rfl
  | cons c scheme ih =>
    rw [List.infix_cons_iff, not_or] at h
    have hfirst : ¬ mark.isPrefixOf (c :: (scheme ++ mark ++ rest)) = true := by
      rw [List.isPrefixOf_iff_prefix]
      exact fun hstart => h.1 (prefix_of_prefix_append (List.cons_ne_nil c scheme) hstart)
    rw [List.cons_append, List.cons_append, cutScheme, if_neg hfirst, ih h.2]
    rfl

theorem fromLastAt_of_not_mem {cs : List Char} (h : '@' ∉ cs) : fromLastAt cs = none := by
  induction cs with
  | nil => rfl
  | cons c cs ih =>
    rw [List.mem_cons, not_or] at h
    rw [fromLastAt, ih h.2, if_neg (Ne.symm h.1)]
    rfl

theorem fromLastAt_append {rest : List Char} (h : '@' ∉ rest) (credentials : List Char) :
    fromLastAt (credentials ++ '@' :: rest) = some ('@' :: rest) := by
  induction credentials with
  | nil =>
    rw [List.nil_append, fromLastAt, fromLastAt_of_not_mem h]
    rfl
  | cons c cs ih =>
    rw [List.cons_append, fromLastAt, ih]
    rfl

/-- An address has no mark, or no at sign after its first mark, or it has credentials from there to
the last at sign. -/
inductive Form : List Char → Prop
  | unmarked {cs : List Char} (hmark : ¬ mark <:+: cs) : Form cs
  | anonymous {scheme rest : List Char} (hmark : ¬ mark <:+: scheme) (hat : '@' ∉ rest) :
    Form (scheme ++ mark ++ rest)
  | credentials {scheme rest : List Char} (hmark : ¬ mark <:+: scheme) (hat : '@' ∉ rest)
    (hidden : List Char) : Form (scheme ++ mark ++ (hidden ++ '@' :: rest))

theorem exists_first_mark {cs : List Char} (h : mark <:+: cs) :
    ∃ scheme rest, cs = scheme ++ mark ++ rest ∧ ¬ mark <:+: scheme := by
  induction cs with
  | nil => simp [mark] at h
  | cons c cs ih =>
    by_cases hfirst : mark <+: c :: cs
    · obtain ⟨rest, hrest⟩ := hfirst
      exact ⟨[], rest, hrest.symm, by simp [mark]⟩
    · obtain ⟨scheme, rest, rfl, hscheme⟩ := ih ((List.infix_cons_iff.mp h).resolve_left hfirst)
      refine ⟨c :: scheme, rest, rfl, fun hinfix => ?_⟩
      -- a mark in the longer scheme is the one that was looked for first, or lies in the shorter
      rcases List.infix_cons_iff.mp hinfix with hstart | hinfix
      · exact hfirst (hstart.trans ⟨mark ++ rest, by simp⟩)
      · exact hscheme hinfix

theorem exists_last_at {cs : List Char} (h : '@' ∈ cs) :
    ∃ front rest, cs = front ++ '@' :: rest ∧ '@' ∉ rest := by
  obtain ⟨rest, front, hcs, hat⟩ := List.eq_append_cons_of_mem (List.mem_reverse.mpr h)
  refine ⟨front.reverse, rest.reverse, ?_, by simpa using hat⟩
  simpa using congrArg List.reverse hcs

theorem form (cs : List Char) : Form cs := by
  by_cases hmark : mark <:+: cs
  · obtain ⟨scheme, rest, rfl, hscheme⟩ := exists_first_mark hmark
    by_cases hat : '@' ∈ rest
    · obtain ⟨hidden, rest, rfl, hrest⟩ := exists_last_at hat
      exact .credentials hscheme hrest hidden
    · exact .anonymous hscheme hat
  · exact .unmarked hmark

theorem redactChars_of_unmarked {cs : List Char} (h : ¬ mark <:+: cs) : redactChars cs = cs := by
  rw [redactChars, cutScheme_of_unmarked h]

theorem redactChars_of_anonymous {scheme rest : List Char} (hmark : ¬ mark <:+: scheme)
    (hat : '@' ∉ rest) : redactChars (scheme ++ mark ++ rest) = scheme ++ mark ++ rest := by
  simp only [redactChars, cutScheme_append hmark, fromLastAt_of_not_mem hat]

theorem redactChars_of_credentials {scheme rest : List Char} (hmark : ¬ mark <:+: scheme)
    (hat : '@' ∉ rest) (hidden : List Char) :
    redactChars (scheme ++ mark ++ (hidden ++ '@' :: rest)) =
      scheme ++ mark ++ (['*', '*', '*'] ++ '@' :: rest) := by
  simp only [redactChars, cutScheme_append hmark, fromLastAt_append hat]
  rw [List.append_assoc (scheme ++ mark)]

theorem redactChars_redactChars (cs : List Char) :
    redactChars (redactChars cs) = redactChars cs := by
  cases form cs with
  | unmarked hmark => rw [redactChars_of_unmarked hmark, redactChars_of_unmarked hmark]
  | anonymous hmark hat =>
    rw [redactChars_of_anonymous hmark hat, redactChars_of_anonymous hmark hat]
  | credentials hmark hat hidden =>
    rw [redactChars_of_credentials hmark hat, redactChars_of_credentials hmark hat]

theorem toList_redact (url : String) : (redact url).toList = redactChars url.toList :=
  String.toList_ofList

theorem redact_of_unmarked {url : String} (h : ¬ mark <:+: url.toList) : redact url = url := by
  rw [redact, redactChars_of_unmarked h, String.ofList_toList]

theorem redact_redact (url : String) : redact (redact url) = redact url := by
  rw [redact, toList_redact, redactChars_redactChars, redact]

variable {s r : String} (hs : ¬ mark <:+: s.toList) (hr : '@' ∉ r.toList)
include hs hr

theorem redact_of_anonymous : redact (s ++ "://" ++ r) = s ++ "://" ++ r := by
  have hurl : (s ++ "://" ++ r).toList = s.toList ++ mark ++ r.toList := by simp [mark]
  rw [redact, hurl, redactChars_of_anonymous hs hr, ← hurl, String.ofList_toList]

theorem redact_of_credentials (u : String) :
    redact (s ++ "://" ++ u ++ "@" ++ r) = s ++ "://***@" ++ r := by
  have hurl : (s ++ "://" ++ u ++ "@" ++ r).toList =
      s.toList ++ mark ++ (u.toList ++ '@' :: r.toList) := by simp [mark]
  have hredacted : (s ++ "://***@" ++ r).toList =
      s.toList ++ mark ++ (['*', '*', '*'] ++ '@' :: r.toList) := by simp [mark]
  rw [redact, hurl, redactChars_of_credentials hs hr, ← hredacted, String.ofList_toList]

end Address

def Config.withUrl (c : Config) (url : String) : Config :=
  { c with messaging.amqp.url := url }

namespace CommandLine

theorem connect_of_memory {c : MessagingConfig} (h : c.type = .memory) :
    connect c = ([c.type.initializedLog,
      Connection.connectedLog "broker" (Address.redact c.amqp.url)], .ok ()) := by
  have hopen : openBroker c = .ok [c.type.initializedLog] := by rw [openBroker, h]
  rw [connect, hopen]
  rfl

/-- A run on the broker in memory has nothing of the address but what is left when it is
redacted. -/
theorem start_withUrl {c : Config} (h : c.messaging.type = .memory) {url url' : String}
    (hurl : Address.redact url = Address.redact url') (sources : Config.Sources) (unique : String)
    (action : Action) :
    start sources unique (c.withUrl url) action = start sources unique (c.withUrl url') action := by
  -- nothing but connecting looks at the address
  have hvalidate : ∀ url, (c.withUrl url).validate = c.validate := fun _ => rfl
  have hserve : ∀ url, serve sources (c.withUrl url) = serve sources c := fun _ => rfl
  have hconnect : ∀ url, connect (c.withUrl url).messaging = ([c.messaging.type.initializedLog,
      Connection.connectedLog "broker" (Address.redact url)], .ok ()) :=
    fun url => connect_of_memory (c := (c.withUrl url).messaging) h
  rw [start, start, hvalidate, hvalidate, hconnect, hconnect, hserve, hserve, hurl]

end CommandLine

namespace Address

structure HidesCredentials (redact : String → String) : Prop where
  hides : ∀ s u r : String, ¬ mark <:+: s.toList → '@' ∉ r.toList →
    redact (s ++ "://" ++ u ++ "@" ++ r) = s ++ "://***@" ++ r
  again : ∀ url, redact (redact url) = redact url
  unmarked : ∀ url : String, ¬ mark <:+: url.toList → redact url = url
  anonymous : ∀ s r : String, ¬ mark <:+: s.toList → '@' ∉ r.toList →
    redact (s ++ "://" ++ r) = s ++ "://" ++ r

/-- Credentials are hidden, so addresses that differ in nothing else are logged alike: when a
remote broker is connected, and all through a run on the broker in memory. -/
theorem redact_hides_credentials :
    HidesCredentials redact ∧
    ∀ s u v r : String, ¬ mark <:+: s.toList → '@' ∉ r.toList →
      Amqp.connectedLog (s ++ "://" ++ u ++ "@" ++ r) =
        Amqp.connectedLog (s ++ "://" ++ v ++ "@" ++ r) ∧
      ∀ (sources : Config.Sources) (unique : String) (c : Config) (action : CommandLine.Action),
        c.messaging.type = .memory →
        CommandLine.start sources unique (c.withUrl (s ++ "://" ++ u ++ "@" ++ r)) action =
          CommandLine.start sources unique (c.withUrl (s ++ "://" ++ v ++ "@" ++ r)) action := by
  refine ⟨⟨fun s u r hs hr => redact_of_credentials hs hr u, redact_redact,
    fun _ => redact_of_unmarked, fun _ _ => redact_of_anonymous⟩, ?_⟩
  intro s u v r hs hr
  have halike : redact (s ++ "://" ++ u ++ "@" ++ r) = redact (s ++ "://" ++ v ++ "@" ++ r) := by
    rw [redact_of_credentials hs hr, redact_of_credentials hs hr]
  refine ⟨by rw [Amqp.connectedLog, Amqp.connectedLog, halike], fun sources unique c action h => ?_⟩
  exact CommandLine.start_withUrl h halike sources unique action

/-- A scheme may end like the mark, and credentials may hold both separators. -/
theorem redact_hides_separators :
    redact ("amqp:/" ++ "://" ++ "u@v://w" ++ "@" ++ "host") = "amqp:/" ++ "://***@" ++ "host" :=
  redact_hides_credentials.1.hides "amqp:/" "u@v://w" "host" (by decide) (by decide)

end Address
end OutcomeRelay
