import OutcomeRelay.Json.Numeral

/-!
The syntax tree of a JSON text. Parsing never fails: where a text stops making sense the tree ends
in a break that names the cause, so that a reader meets faults in the order in which the text has
them. Literals that end properly but hold no text can still be skipped.
-/

namespace OutcomeRelay.Json

/-- A string as written. A broken one may break later for who only skips it. -/
inductive Literal where
  | text (s : String)
  | unreadable
  | broken (reading skipping : Cause)
  deriving DecidableEq, Repr, Inhabited

inductive Closing where
  | closed
  | broken (cause : Cause)
  deriving DecidableEq, Repr, Inhabited

/-- A node of the tree. It is broken where nothing stands, and garbled where a word or a numeral is
none. What should be a key and is no string is a broken one. -/
inductive Document where
  | null
  | bool (b : Bool)
  | number (n : Except Cause Number)
  | string (s : Literal)
  | array (items : List Document) (closing : Closing)
  | object (members : List (Literal × Document)) (closing : Closing)
  | garbled (cause : Cause)
  | broken (cause : Cause)
  deriving Inhabited

namespace Document

def skipBlank : Bytes → Bytes :=
  List.dropWhile fun b => b == 0x20 || b == 0x0A || b == 0x0D || b == 0x09

def hexValue (b : UInt8) : Option Nat :=
  if 0x30 ≤ b && b ≤ 0x39 then some (b.toNat - 0x30)
  else if 0x61 ≤ b && b ≤ 0x66 then some (b.toNat - 0x57)
  else if 0x41 ≤ b && b ≤ 0x46 then some (b.toNat - 0x37)
  else none

def hex4 : Bytes → Except Cause (Nat × Bytes)
  | a :: b :: c :: d :: rest =>
    match hexValue a, hexValue b, hexValue c, hexValue d with
    | some a, some b, some c, some d => .ok (((a * 16 + b) * 16 + c) * 16 + d, rest)
    | _, _, _, _ => .error .malformed
  | _ => .error .truncated

def shortEscape (b : UInt8) : Option UInt8 :=
  if b = 0x22 ∨ b = 0x5C ∨ b = 0x2F then some b
  else if b = 0x62 then some 0x08
  else if b = 0x66 then some 0x0C
  else if b = 0x6E then some 0x0A
  else if b = 0x72 then some 0x0D
  else if b = 0x74 then some 0x09
  else none

/-- The code point of a `\u` escape whose `\u` has been read; surrogates must come in pairs. -/
def codePoint (bs : Bytes) : Except Cause (Nat × Bytes) := do
  let (n, rest) ← hex4 bs
  if 0xDC00 ≤ n ∧ n ≤ 0xDFFF then throw .malformed
  if n < 0xD800 ∨ 0xDBFF < n then return (n, rest)
  match rest with
  | [] => throw .truncated
  | 0x5C :: [] => throw .truncated
  | 0x5C :: 0x75 :: rest' =>
    let (m, rest'') ← hex4 rest'
    if m < 0xDC00 ∨ 0xDFFF < m then throw .malformed
    return (0x10000 + (n - 0xD800) * 0x400 + (m - 0xDC00), rest'')
  | _ => throw .malformed

def content : Nat → Bytes → Except Cause (Bytes × Bytes)
  | 0, _ => .error .truncated
  | _, [] => .error .truncated
  | fuel + 1, b :: rest =>
    if b = 0x22 then .ok ([], rest)
    else if b = 0x5C then
      match rest with
      | [] => .error .truncated
      | c :: rest' =>
        if c = 0x75 then do
          let (n, rest'') ← codePoint rest'
          let (text, after) ← content fuel rest''
          return (String.utf8EncodeChar (Char.ofNat n) ++ text, after)
        else
          match shortEscape c with
          | none => .error .malformed
          | some e => do
            let (text, after) ← content fuel rest'
            return (e :: text, after)
    else if b < 0x20 then .error .malformed
    else do
      let (text, after) ← content fuel rest
      return (b :: text, after)

def pass : Nat → Bytes → Except Cause Bytes
  | 0, _ => .error .truncated
  | _, [] => .error .truncated
  | fuel + 1, b :: rest =>
    if b = 0x22 then .ok rest
    else if b = 0x5C then
      match rest with
      | [] => .error .truncated
      | c :: rest' =>
        if c = 0x75 then do
          let (_, rest'') ← hex4 rest'
          pass fuel rest''
        else if (shortEscape c).isSome then pass fuel rest'
        else .error .malformed
    else if b < 0x20 then .error .malformed
    else pass fuel rest

def literal (bs : Bytes) : Literal × Option Bytes :=
  match pass (bs.length + 1) bs, content (bs.length + 1) bs with
  | .error skipping, .error reading => (.broken reading skipping, none)
  | .error skipping, .ok _ => (.broken skipping skipping, none)
  | .ok rest, .error _ => (.unreadable, some rest)
  | .ok rest, .ok (text, _) =>
    match Text.decode? text with
    | some s => (.text s, some rest)
    | none => (.unreadable, some rest)

def word (d : Document) : Bytes → Bytes → Document × Option Bytes
  | [], rest => (d, some rest)
  | _ :: _, [] => (.garbled .truncated, none)
  | w :: ws, b :: rest => if w = b then word d ws rest else (.garbled .malformed, none)

def numeral (bs : Bytes) : Document × Option Bytes :=
  match Numeral.scan bs with
  | .ok (n, rest) => (.number n.toNumber, some rest)
  | .error c => (.garbled c, none)

def noKey (c : Cause) : Literal × Document :=
  (.broken c c, .broken c)

mutual

def value : Nat → Bytes → Document × Option Bytes
  | 0, _ => (.broken .truncated, none)
  | fuel + 1, bs =>
    match skipBlank bs with
    | [] => (.broken .truncated, none)
    | b :: rest =>
      if b = 0x22 then
        let (s, after) := literal rest
        (.string s, after)
      else if b = 0x7B then
        let (ms, closing, after) := members fuel true rest
        (.object ms closing, after)
      else if b = 0x5B then
        let (is, closing, after) := items fuel true rest
        (.array is closing, after)
      else if b = 0x6E then word .null [0x75, 0x6C, 0x6C] rest
      else if b = 0x74 then word (.bool true) [0x72, 0x75, 0x65] rest
      else if b = 0x66 then word (.bool false) [0x61, 0x6C, 0x73, 0x65] rest
      else numeral (b :: rest)

def items : Nat → Bool → Bytes → List Document × Closing × Option Bytes
  | 0, _, _ => ([], .broken .truncated, none)
  | fuel + 1, first, bs =>
    match skipBlank bs with
    | 0x5D :: rest =>
      if first then ([], .closed, some rest) else ([.broken .malformed], .closed, none)
    | [] => if first then ([], .broken .truncated, none) else ([.broken .truncated], .closed, none)
    | _ =>
      match value fuel bs with
      | (d, none) => ([d], .closed, none)
      | (d, some rest) =>
        match skipBlank rest with
        | [] => ([d], .broken .truncated, none)
        | 0x5D :: rest' => ([d], .closed, some rest')
        | 0x2C :: rest' =>
          let (ds, closing, after) := items fuel false rest'
          (d :: ds, closing, after)
        | _ => ([d], .broken .malformed, none)

def members : Nat → Bool → Bytes → List (Literal × Document) × Closing × Option Bytes
  | 0, _, _ => ([], .broken .truncated, none)
  | fuel + 1, first, bs =>
    match skipBlank bs with
    | [] =>
      if first then ([], .broken .truncated, none)
      else ([noKey .truncated], .closed, none)
    | 0x7D :: rest =>
      if first then ([], .closed, some rest)
      else ([noKey .malformed], .closed, none)
    | 0x22 :: rest =>
      match literal rest with
      | (k, none) => ([(k, .broken .truncated)], .closed, none)
      | (k, some rest') =>
        match skipBlank rest' with
        | [] => ([(k, .broken .truncated)], .closed, none)
        | 0x3A :: rest'' =>
          match value fuel rest'' with
          | (d, none) => ([(k, d)], .closed, none)
          | (d, some after) =>
            match skipBlank after with
            | [] => ([(k, d)], .broken .truncated, none)
            | 0x7D :: after' => ([(k, d)], .closed, some after')
            | 0x2C :: after' =>
              let (ms, closing, last) := members fuel false after'
              ((k, d) :: ms, closing, last)
            | _ => ([(k, d)], .broken .malformed, none)
        | _ => ([(k, .broken .malformed)], .closed, none)
    | _ => ([noKey .malformed], .closed, none)

end

end Document

structure Source where
  document : Document
  trailing : Bool

/-- The syntax tree of a text. A bracket costs two steps of recursion, anything else at most one. -/
def Source.parse (bs : Bytes) : Source :=
  match Document.value (2 * bs.length + 2) bs with
  | (d, none) => ⟨d, false⟩
  | (d, some rest) => ⟨d, !(Document.skipBlank rest).isEmpty⟩

end OutcomeRelay.Json
