import Mathlib.Data.List.Basic
import OutcomeRelay.Text.Utf8

/-!
Text as bytes and back. A character has one of four lengths, and whatever its length it is scanned
off the front of the bytes that it encodes to; so a text is what it encodes to decodes to.
-/

namespace OutcomeRelay.Text

section Scan

variable {v : Nat} (rest : Bytes)

theorem toNat_byte {n : Nat} (h : n < 256) : (UInt8.ofNat n).toNat = n :=
  UInt8.toNat_ofNat_of_lt' h

theorem isContinuation_byte {n : Nat} (h : n < 64) : isContinuation (UInt8.ofNat (n + 128)) := by
  have hn : n + 128 < 256 := by omega
  simp only [isContinuation, UInt8.le_iff_toNat_le, toNat_byte hn, UInt8.reduceToNat,
    Bool.and_eq_true, decide_eq_true_eq]
  omega

theorem low6_byte {n : Nat} (h : n < 64) : low6 (UInt8.ofNat (n + 128)) = n := by
  have hn : n + 128 < 256 := by omega
  rw [low6, toNat_byte hn]
  omega

theorem isSecond_byte {a b : Nat} (ha : a < 256) (hb : b < 64) (hE0 : a = 0xE0 → 32 ≤ b)
    (hED : a = 0xED → b < 32) (hF0 : a = 0xF0 → 16 ≤ b) (hF4 : a = 0xF4 → b < 16) :
    isSecond (UInt8.ofNat a) (UInt8.ofNat (b + 128)) := by
  have hb' : b + 128 < 256 := by omega
  unfold isSecond isContinuation
  simp only [UInt8.le_iff_toNat_le, ← UInt8.toNat_inj, beq_iff_eq, toNat_byte ha, toNat_byte hb',
    UInt8.reduceToNat]
  repeat' split
  all_goals
    simp only [Bool.and_eq_true, decide_eq_true_eq]
    omega

theorem scan_one (h : v < 0x80) : scan (UInt8.ofNat v) rest = (.scalar (Char.ofNat v), rest) := by
  have hv : v < 256 := by omega
  have hlt : UInt8.ofNat v < 0x80 := by
    rw [UInt8.lt_iff_toNat_lt, toNat_byte hv]
    exact h
  rw [scan.eq_def, if_pos hlt, toNat_byte hv]

theorem scan_two (h : 0x80 ≤ v) (h' : v < 0x800) :
    scan (UInt8.ofNat (v / 64 % 32 + 192)) (UInt8.ofNat (v % 64 + 128) :: rest) =
      (.scalar (Char.ofNat v), rest) := by
  have ha : v / 64 % 32 + 192 < 256 := by omega
  have hsum : (v / 64 % 32 + 192) % 32 * 64 + v % 64 = v := by omega
  have hb := Nat.mod_lt v (show 64 > 0 by decide)
  rw [scan.eq_def, if_neg, if_pos]
  · dsimp only
    rw [if_pos (isContinuation_byte hb), low6_byte hb, toNat_byte ha, hsum]
  all_goals
    simp only [UInt8.lt_iff_toNat_lt, UInt8.le_iff_toNat_le, toNat_byte ha, UInt8.reduceToNat,
      Bool.and_eq_true, decide_eq_true_eq]
    omega

theorem scan_three (h : 0x800 ≤ v) (h' : v < 0x10000) (hs : v < 0xD800 ∨ 0xDFFF < v) :
    scan (UInt8.ofNat (v / 4096 % 16 + 224))
      (UInt8.ofNat (v / 64 % 64 + 128) :: UInt8.ofNat (v % 64 + 128) :: rest) =
      (.scalar (Char.ofNat v), rest) := by
  have ha : v / 4096 % 16 + 224 < 256 := by omega
  have hb : v / 64 % 64 < 64 := by omega
  have hc : v % 64 < 64 := by omega
  have hsum : ((v / 4096 % 16 + 224) % 16 * 64 + v / 64 % 64) * 64 + v % 64 = v := by omega
  -- the shortest form, and no surrogate
  have hsecond := isSecond_byte ha hb (by omega) (by omega) (by omega) (by omega)
  rw [scan.eq_def, if_neg, if_neg, if_pos]
  · dsimp only
    rw [if_pos hsecond, if_pos (isContinuation_byte hc), low6_byte hb, low6_byte hc,
      toNat_byte ha, hsum]
  all_goals
    simp only [UInt8.lt_iff_toNat_lt, UInt8.le_iff_toNat_le, toNat_byte ha, UInt8.reduceToNat,
      Bool.and_eq_true, decide_eq_true_eq]
    omega

theorem scan_four (h : 0x10000 ≤ v) (h' : v < 0x110000) :
    scan (UInt8.ofNat (v / 262144 % 8 + 240)) (UInt8.ofNat (v / 4096 % 64 + 128) ::
      UInt8.ofNat (v / 64 % 64 + 128) :: UInt8.ofNat (v % 64 + 128) :: rest) =
      (.scalar (Char.ofNat v), rest) := by
  have ha : v / 262144 % 8 + 240 < 256 := by omega
  have hb : v / 4096 % 64 < 64 := by omega
  have hc : v / 64 % 64 < 64 := by omega
  have hd : v % 64 < 64 := by omega
  have hsum : (((v / 262144 % 8 + 240) % 8 * 64 + v / 4096 % 64) * 64 + v / 64 % 64) * 64 +
      v % 64 = v := by
    omega
  have hsecond := isSecond_byte ha hb (by omega) (by omega) (by omega) (by omega)
  rw [scan.eq_def, if_neg, if_neg, if_neg, if_pos]
  · dsimp only
    rw [if_pos hsecond, if_pos (isContinuation_byte hc), if_pos (isContinuation_byte hd),
      low6_byte hb, low6_byte hc, low6_byte hd, toNat_byte ha, hsum]
  all_goals
    simp only [UInt8.lt_iff_toNat_lt, UInt8.le_iff_toNat_le, toNat_byte ha, UInt8.reduceToNat,
      Bool.and_eq_true, decide_eq_true_eq]
    omega

theorem scan_utf8EncodeChar (c : Char) :
    ∃ a tail, String.utf8EncodeChar c = a :: tail ∧ scan a (tail ++ rest) = (.scalar c, rest) := by
  have hc : Char.ofNat c.val.toNat = c := Char.ofNat_toNat c
  have hvalid : c.val.toNat < 0xD800 ∨ 0xDFFF < c.val.toNat ∧ c.val.toNat < 0x110000 := c.valid
  rw [String.utf8EncodeChar]
  generalize c.val.toNat = v at hc hvalid
  subst hc
  split
  · exact ⟨_, _, rfl, scan_one rest (by omega)⟩
  split
  · exact ⟨_, _, rfl, scan_two rest (by omega) (by omega)⟩
  split
  · exact ⟨_, _, rfl, scan_three rest (by omega) (by omega) (by omega)⟩
  · exact ⟨_, _, rfl, scan_four rest (by omega) (by omega)⟩

end Scan

theorem pieces_utf8EncodeChar (c : Char) (rest : Bytes) :
    pieces (String.utf8EncodeChar c ++ rest) = .scalar c :: pieces rest := by
  obtain ⟨a, tail, hbytes, hscan⟩ := scan_utf8EncodeChar rest c
  rw [hbytes, List.cons_append, pieces, hscan]

theorem pieces_encode (cs : List Char) :
    pieces (cs.flatMap String.utf8EncodeChar) = cs.map .scalar := by
  induction cs with
  | nil => rw [List.flatMap_nil, pieces, List.map_nil]
  | cons c cs ih => rw [List.flatMap_cons, pieces_utf8EncodeChar, ih, List.map_cons]

theorem decode?_encode (s : String) : decode? (encode s) = some s := by
  have hchars : ∀ cs : List Char, (cs.map Piece.scalar).mapM Piece.char? = some cs := by
    intro cs
    induction cs with
    | nil => rfl
    | cons c cs ih => rw [List.map_cons, List.mapM_cons, ih]; rfl
  rw [decode?, encode, pieces_encode, hchars, Option.map_some, String.ofList_toList]

end OutcomeRelay.Text
