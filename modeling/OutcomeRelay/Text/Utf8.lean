/-!
UTF-8. `scan` takes one scalar value off the front of a byte string, or the longest start of one
that cannot be completed; decoding fails on the second kind, and lossy decoding writes U+FFFD for
it.
-/

namespace OutcomeRelay

abbrev Bytes := List UInt8

namespace Text

/-- What stands at the front of a byte string: a scalar value, or bytes that start none. -/
inductive Piece where
  | scalar (c : Char)
  | invalid
  deriving DecidableEq, Repr

def isContinuation (b : UInt8) : Bool :=
  0x80 ≤ b && b ≤ 0xBF

/-- The second byte of a sequence that begins with `a`, where not every continuation byte will
do. -/
def isSecond (a b : UInt8) : Bool :=
  if a == 0xE0 then 0xA0 ≤ b && b ≤ 0xBF
  else if a == 0xED then 0x80 ≤ b && b ≤ 0x9F
  else if a == 0xF0 then 0x90 ≤ b && b ≤ 0xBF
  else if a == 0xF4 then 0x80 ≤ b && b ≤ 0x8F
  else isContinuation b

def low6 (b : UInt8) : Nat :=
  b.toNat % 64

def scan (a : UInt8) (rest : Bytes) : Piece × Bytes :=
  if a < 0x80 then (.scalar (Char.ofNat a.toNat), rest)
  else if 0xC2 ≤ a && a ≤ 0xDF then
    match rest with
    | b :: rest' =>
      if isContinuation b then (.scalar (Char.ofNat (a.toNat % 32 * 64 + low6 b)), rest')
      else (.invalid, rest)
    | [] => (.invalid, rest)
  else if 0xE0 ≤ a && a ≤ 0xEF then
    match rest with
    | b :: rest' =>
      if isSecond a b then
        match rest' with
        | c :: rest'' =>
          if isContinuation c then
            (.scalar (Char.ofNat ((a.toNat % 16 * 64 + low6 b) * 64 + low6 c)), rest'')
          else (.invalid, rest')
        | [] => (.invalid, rest')
      else (.invalid, rest)
    | [] => (.invalid, rest)
  else if 0xF0 ≤ a && a ≤ 0xF4 then
    match rest with
    | b :: rest' =>
      if isSecond a b then
        match rest' with
        | c :: rest'' =>
          if isContinuation c then
            match rest'' with
            | d :: rest''' =>
              if isContinuation d then
                (.scalar (Char.ofNat (((a.toNat % 8 * 64 + low6 b) * 64 + low6 c) * 64 + low6 d)),
                  rest''')
              else (.invalid, rest'')
            | [] => (.invalid, rest'')
          else (.invalid, rest')
        | [] => (.invalid, rest')
      else (.invalid, rest)
    | [] => (.invalid, rest)
  else (.invalid, rest)

theorem scan_length (a : UInt8) (rest : Bytes) : (scan a rest).2.length ≤ rest.length := by
  unfold scan
  repeat' split
  all_goals simp only [List.length_cons]; omega

def pieces : Bytes → List Piece
  | [] => []
  | a :: rest => (scan a rest).1 :: pieces (scan a rest).2
  termination_by bs => bs.length
  decreasing_by
    have := scan_length a rest
    simp only [List.length_cons]
    omega

def Piece.char? : Piece → Option Char
  | .scalar c => some c
  | .invalid => none

def Piece.charD : Piece → Char
  | .scalar c => c
  | .invalid => Char.ofNat 0xFFFD

def decode? (bs : Bytes) : Option String :=
  ((pieces bs).mapM Piece.char?).map String.ofList

/-- The text of `bs` with U+FFFD in place of each longest invalid start. -/
def decodeLossy (bs : Bytes) : String :=
  String.ofList ((pieces bs).map Piece.charD)

def encode (s : String) : Bytes :=
  s.toList.flatMap String.utf8EncodeChar

end Text
end OutcomeRelay
