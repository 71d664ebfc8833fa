import OutcomeRelay.Log
import OutcomeRelay.Text.Blank
import OutcomeRelay.Text.Digits

/-!
Which log entries are printed. A filter is a list of rules, each with a level and, if it is not for
all entries, the part of the service or the span of work that it is for. Of the rules for a part the
most specific one counts; a rule for a span lets through what happens within it besides.
-/

namespace OutcomeRelay.Log

def Part.path : Part → String
  | .program => "payment_relay"
  | .broker => "payment_relay::bus"
  | .memoryBroker => "payment_relay::bus::memory"
  | .remoteBroker => "payment_relay::bus::amqp"
  | .connection => "payment_relay::utils::bootstrap"
  | .topology => "payment_relay::topology"
  | .publisher => "payment_relay::publisher"
  | .monitor => "payment_relay::publisher::monitor"
  | .dispatcher => "payment_relay::dispatch::dispatcher"
  | .delivery => "payment_relay::dispatch::worker"
  | .recovery => "payment_relay::dlq"
  | .handler => "payment_relay::handlers"

structure Span where
  part : Part
  name : String
  fields : List String

def Part.span? : Part → Option Span
  | .publisher =>
    some ⟨.publisher, "publisher.publish", ["exchange", "routing_key", "message_id"]⟩
  | .delivery | .recovery | .handler =>
    some ⟨.delivery, "dispatch.delivery", ["queue", "delivery_tag", "message_id"]⟩
  | _ => none

abbrev Threshold := Option Level

def Level.rank : Level → Nat
  | .debug => 0
  | .info => 1
  | .warn => 2
  | .error => 3

def Entry.reaches (e : Entry) : Threshold → Bool
  | some l => l.rank ≤ e.level.rank
  | none => false

def thresholds : List (String × Threshold) :=
  [("", some .error), ("off", none), ("error", some .error), ("warn", some .warn),
    ("info", some .info), ("debug", some .debug), ("trace", some .debug)]

def numberedThresholds : List Threshold :=
  [none, some .error, some .warn, some .info, some .debug, some .debug]

def threshold? (word : List Char) : Option Threshold :=
  let digits := match word with
    | '+' :: cs => cs
    | cs => cs
  match Text.digits? digits with
  | some n => numberedThresholds[n]?
  | none => thresholds.lookup (String.ofList (word.map Char.toLower))

structure Rule where
  target : Option String
  span : Option String
  field : Option String
  threshold : Threshold
  deriving Repr

namespace Rule

def level? : List Char → Option Threshold
  | [] | ['='] => some (some .debug)
  | '=' :: word => threshold? word
  | _ => none

def filled? (cs : List Char) : Option String :=
  if cs.isEmpty then none else some (String.ofList cs)

def ofSpan? (target : Option String) (cs : List Char) : Option Rule := do
  let name := cs.takeWhile fun c => c != ']' && c != '\x7b'
  match cs.drop name.length with
  | ']' :: rest => return ⟨target, some (String.ofList name), none, ← level? rest⟩
  | '\x7b' :: rest =>
    let field ← filled? (rest.takeWhile (· != '\x7d'))
    match rest.dropWhile (· != '\x7d') with
    | '\x7d' :: ']' :: rest => return ⟨target, filled? name, some field, ← level? rest⟩
    | _ => none
  | _ => none

def mayBegin (c : Char) : Bool :=
  c == '-' || c == ':' || c == '_' || c == '[' || c.isAlphanum || 0x80 ≤ c.toNat

/-- A rule from its text; none if the text is no rule. A word that is no level is a target. Blanks
before the text shift its parts, and blanks behind it belong to the last of them. -/
def ofText? (cs : List Char) : Option Rule := do
  let inner := (Text.trimStart (Text.trimStart cs).reverse).reverse
  if !inner.head?.any mayBegin then none
  let first := inner.takeWhile fun c => c != '=' && c != '['
  let target := cs.take first.length
  let rest := cs.drop first.length
  match inner.drop first.length with
  | [] =>
    match threshold? cs with
    | some t => return ⟨none, none, none, t⟩
    | none => return ⟨some (String.ofList cs), none, none, some .debug⟩
  | '=' :: _ => return ⟨some (String.ofList target), none, none, ← level? ('=' :: rest.drop 1)⟩
  | _ => ofSpan? (if first.isEmpty then none else some (String.ofList target)) (rest.drop 1)

def coversPath (r : Rule) (path : String) : Bool :=
  r.target.all fun t => t.isPrefixOf path

def isPlain (r : Rule) : Bool :=
  r.span.isNone && r.field.all fun f => !f.toList.contains '='

def covers (r : Rule) (e : Entry) : Bool :=
  r.isPlain && r.coversPath e.part.path
    && r.field.all fun f => f == "message" || e.fields.any (·.1 == f)

def coversSpan (r : Rule) (s : Span) : Bool :=
  (r.span.isSome || r.field.isSome) && r.coversPath s.part.path && r.span.all (· == s.name)
    && r.field.all fun f => s.fields.contains f

/-- How specific a rule is: the length of its target, then whether it asks for a field. -/
def weight (r : Rule) : Nat :=
  2 * (r.target.elim 0 fun t => t.utf8ByteSize + 1) + r.field.isSome.toNat

end Rule

/-- The most specific of some rules, and of those the last. -/
def heaviest (rs : List Rule) : Option Rule :=
  rs.foldl (fun best r => if best.all (·.weight ≤ r.weight) then some r else best) none

structure Filter where
  rules : List Rule
  deriving Repr

namespace Filter

def ofLevel (l : Level) : Filter :=
  ⟨[⟨none, none, none, some l⟩]⟩

def ofText? (text : String) : Option Filter :=
  let pieces := (text.splitOn ",").filter (!·.isEmpty)
  if pieces.isEmpty then some (ofLevel .error)
  else (pieces.mapM fun p => Rule.ofText? p.toList).map Filter.mk

def ofSetting (setting : Option String) : Filter :=
  (setting.bind ofText?).getD (ofLevel .info)

def lets (f : Filter) (e : Entry) : Bool :=
  ((heaviest (f.rules.filter (·.covers e))).any fun r => e.reaches r.threshold)
    || e.part.span?.any fun s => f.rules.any fun r => r.coversSpan s && e.reaches r.threshold

end Filter

def filterVariable : String :=
  "PAYMENT_RELAY_LOG"

end OutcomeRelay.Log
