import OutcomeRelay.Json.Printer
import OutcomeRelay.Json.Reader
import OutcomeRelay.Proofs.DigitText
import OutcomeRelay.Proofs.TextCodec

/-!
Printed objects read back. An object whose members are texts and whole numbers is printed as bytes
that parse to the tree of the object: each escape is read as the character it stands for, and each
numeral ends where its digits end.
-/

namespace OutcomeRelay

namespace Text

def bytes (cs : List Char) : Bytes :=
  cs.flatMap String.utf8EncodeChar

theorem bytes_append (cs ds : List Char) : bytes (cs ++ ds) = bytes cs ++ bytes ds :=
  List.flatMap_append

theorem bytes_cons (c : Char) (cs : List Char) :
    bytes (c :: cs) = String.utf8EncodeChar c ++ bytes cs :=
  List.flatMap_cons

theorem encode_eq (s : String) : encode s = bytes s.toList := rfl

theorem utf8EncodeChar_ascii {c : Char} (h : c.toNat < 0x80) :
    String.utf8EncodeChar c = [UInt8.ofNat c.toNat] := by
  have hle : c.val.toNat ≤ 127 := Nat.le_of_lt_succ h
  rw [String.utf8EncodeChar, if_pos hle]
  rfl

theorem bytes_ascii {c : Char} (h : c.toNat < 0x80) (cs : List Char) :
    bytes (c :: cs) = UInt8.ofNat c.toNat :: bytes cs := by
  rw [bytes_cons, utf8EncodeChar_ascii h]
  rfl

end Text

namespace Json.Document

open Text

def Ordinary (b : UInt8) : Prop :=
  b ≠ 0x22 ∧ b ≠ 0x5C ∧ ¬ b < 0x20

theorem ordinary_of_high {n : Nat} (h : 0x80 ≤ n) (h' : n < 256) : Ordinary (UInt8.ofNat n) := by
  unfold Ordinary
  simp only [ne_eq, ← UInt8.toNat_inj, UInt8.lt_iff_toNat_lt, toNat_byte h', UInt8.reduceToNat]
  omega

theorem ordinary_utf8EncodeChar {c : Char} (hquote : c ≠ '"') (hslash : c ≠ '\\')
    (hcontrol : ¬ c.toNat < 0x20) : ∀ b ∈ String.utf8EncodeChar c, Ordinary b := by
  have hq : c.toNat ≠ 0x22 := fun h => hquote (Char.toNat_inj.mp h)
  have hs : c.toNat ≠ 0x5C := fun h => hslash (Char.toNat_inj.mp h)
  have hvalid : c.toNat < 0xD800 ∨ 0xDFFF < c.toNat ∧ c.toNat < 0x110000 := c.valid
  have hval : c.val.toNat = c.toNat := rfl
  rw [String.utf8EncodeChar, hval]
  generalize c.toNat = v at *
  split
  · next hone =>
    intro b hb
    rw [List.mem_singleton.mp hb]
    have hv : v < 256 := by omega
    unfold Ordinary
    simp only [ne_eq, ← UInt8.toNat_inj, UInt8.lt_iff_toNat_lt, toNat_byte hv, UInt8.reduceToNat]
    omega
  -- longer characters have bytes above all of these only
  · have hhigh : ∀ ns : List Nat, (∀ n ∈ ns, 0x80 ≤ n ∧ n < 256) →
        ∀ b ∈ ns.map UInt8.ofNat, Ordinary b := by
      intro ns hns b hb
      obtain ⟨n, hn, rfl⟩ := List.mem_map.mp hb
      exact ordinary_of_high (hns n hn).1 (hns n hn).2
    split
    · exact hhigh [v / 64 % 32 + 192, v % 64 + 128] (by simp; omega)
    split
    · exact hhigh [v / 4096 % 16 + 224, v / 64 % 64 + 128, v % 64 + 128] (by simp; omega)
    · exact hhigh [v / 262144 % 8 + 240, v / 4096 % 64 + 128, v / 64 % 64 + 128, v % 64 + 128]
        (by simp; omega)

theorem content_ordinary {bs : Bytes} (h : ∀ b ∈ bs, Ordinary b) (fuel : Nat) (rest : Bytes) :
    content (fuel + bs.length) (bs ++ rest) =
      (content fuel rest).map fun r => (bs ++ r.1, r.2) := by
  induction bs with
  | nil => cases hc : content fuel rest <;> simp [Except.map, hc]
  | cons b bs ih =>
    obtain ⟨hquote, hslash, hcontrol⟩ := h b List.mem_cons_self
    have hrest := ih fun x hx => h x (List.mem_cons_of_mem _ hx)
    rw [List.length_cons, ← Nat.add_assoc, List.cons_append, content.eq_def]
    dsimp only
    rw [if_neg hquote, if_neg hslash, if_neg hcontrol, hrest]
    cases content fuel rest <;> rfl

theorem pass_ordinary {bs : Bytes} (h : ∀ b ∈ bs, Ordinary b) (fuel : Nat) (rest : Bytes) :
    pass (fuel + bs.length) (bs ++ rest) = pass fuel rest := by
  induction bs with
  | nil => rfl
  | cons b bs ih =>
    obtain ⟨hquote, hslash, hcontrol⟩ := h b List.mem_cons_self
    have hrest := ih fun x hx => h x (List.mem_cons_of_mem _ hx)
    rw [List.length_cons, ← Nat.add_assoc, List.cons_append, pass.eq_def]
    dsimp only
    rw [if_neg hquote, if_neg hslash, if_neg hcontrol, hrest]

theorem content_escaped {x b : UInt8} (hx : x ≠ 0x75) (hb : shortEscape x = some b) (fuel : Nat)
    (rest : Bytes) : content (fuel + 1) (0x5C :: x :: rest) =
      (content fuel rest).map fun r => (b :: r.1, r.2) := by
  rw [content.eq_def]
  dsimp only
  rw [if_neg (by decide), if_pos rfl, if_neg hx, hb]
  cases content fuel rest <;> rfl

theorem pass_escaped {x b : UInt8} (hx : x ≠ 0x75) (hb : shortEscape x = some b) (fuel : Nat)
    (rest : Bytes) : pass (fuel + 1) (0x5C :: x :: rest) = pass fuel rest := by
  rw [pass.eq_def]
  dsimp only
  rw [if_neg (by decide), if_pos rfl, if_neg hx, hb]
  rfl

theorem hexDigit_ascii : ∀ n < 16, (hexDigit n).toNat < 0x80 := by
  decide

theorem hexValue_hexDigit : ∀ n < 16, hexValue (UInt8.ofNat (hexDigit n).toNat) = some n := by
  decide

theorem hex4_control {n : Nat} (h : n < 0x20) (rest : Bytes) :
    hex4 (0x30 :: 0x30 :: UInt8.ofNat (hexDigit (n / 16)).toNat ::
      UInt8.ofNat (hexDigit (n % 16)).toNat :: rest) = .ok (n, rest) := by
  have hzero : hexValue 0x30 = some 0 := by decide
  have hsum : ((0 * 16 + 0) * 16 + n / 16) * 16 + n % 16 = n := by omega
  rw [hex4, hzero, hexValue_hexDigit _ (by omega), hexValue_hexDigit _ (by omega)]
  dsimp only
  rw [hsum]

theorem codePoint_control {n : Nat} (h : n < 0x20) (rest : Bytes) :
    codePoint (0x30 :: 0x30 :: UInt8.ofNat (hexDigit (n / 16)).toNat ::
      UInt8.ofNat (hexDigit (n % 16)).toNat :: rest) = .ok (n, rest) := by
  have hlow : ¬ (0xDC00 ≤ n ∧ n ≤ 0xDFFF) := by omega
  have hplain : n < 0xD800 ∨ 0xDBFF < n := by omega
  rw [codePoint, hex4_control h]
  simp [hlow, hplain, bind, Except.bind, pure, Except.pure]

theorem bytes_control {n : Nat} (h : n < 0x20) :
    bytes ['\\', 'u', '0', '0', hexDigit (n / 16), hexDigit (n % 16)] =
      0x5C :: 0x75 :: 0x30 :: 0x30 :: UInt8.ofNat (hexDigit (n / 16)).toNat ::
        [UInt8.ofNat (hexDigit (n % 16)).toNat] := by
  rw [bytes_ascii (by decide), bytes_ascii (by decide), bytes_ascii (by decide),
    bytes_ascii (by decide), bytes_ascii (hexDigit_ascii _ (by omega)),
    bytes_ascii (hexDigit_ascii _ (by omega))]
  rfl

theorem content_control {n : Nat} (h : n < 0x20) (fuel : Nat) (rest : Bytes) :
    content (fuel + 1) (0x5C :: 0x75 :: 0x30 :: 0x30 :: UInt8.ofNat (hexDigit (n / 16)).toNat ::
      UInt8.ofNat (hexDigit (n % 16)).toNat :: rest) =
      (content fuel rest).map fun r => (String.utf8EncodeChar (Char.ofNat n) ++ r.1, r.2) := by
  rw [content.eq_def]
  dsimp only
  rw [if_neg (by decide), if_pos rfl, if_pos rfl, codePoint_control h]
  dsimp only [bind, Except.bind]
  cases content fuel rest <;> rfl

theorem pass_control {n : Nat} (h : n < 0x20) (fuel : Nat) (rest : Bytes) :
    pass (fuel + 1) (0x5C :: 0x75 :: 0x30 :: 0x30 :: UInt8.ofNat (hexDigit (n / 16)).toNat ::
      UInt8.ofNat (hexDigit (n % 16)).toNat :: rest) = pass fuel rest := by
  rw [pass.eq_def]
  dsimp only
  rw [if_neg (by decide), if_pos rfl, if_pos rfl, hex4_control h]
  rfl

theorem read_escapeChar (c : Char) : ∃ k ≤ (bytes (escapeChar c)).length, ∀ fuel rest,
    content (fuel + k) (bytes (escapeChar c) ++ rest) =
        (content fuel rest).map (fun r => (String.utf8EncodeChar c ++ r.1, r.2)) ∧
      pass (fuel + k) (bytes (escapeChar c) ++ rest) = pass fuel rest := by
  have short : ∀ (x b : UInt8), x ≠ 0x75 → shortEscape x = some b →
      ∃ k ≤ 2, ∀ fuel rest, content (fuel + k) (0x5C :: x :: rest) =
          (content fuel rest).map (fun r => (b :: r.1, r.2)) ∧
        pass (fuel + k) (0x5C :: x :: rest) = pass fuel rest :=
    fun x b hx hb => ⟨1, by decide, fun fuel rest =>
      ⟨content_escaped hx hb fuel rest, pass_escaped hx hb fuel rest⟩⟩
  unfold escapeChar
  split
  · next h =>
    rw [beq_iff_eq.mp h]
    exact short 0x22 0x22 (by decide) rfl
  split
  · next h =>
    rw [beq_iff_eq.mp h]
    exact short 0x5C 0x5C (by decide) rfl
  split
  · next h =>
    rw [beq_iff_eq.mp h]
    exact short 0x6E 0x0A (by decide) rfl
  split
  · next h =>
    rw [beq_iff_eq.mp h]
    exact short 0x72 0x0D (by decide) rfl
  split
  · next h =>
    rw [beq_iff_eq.mp h]
    exact short 0x74 0x09 (by decide) rfl
  split
  · next h =>
    rw [beq_iff_eq.mp h]
    exact short 0x62 0x08 (by decide) rfl
  split
  · next h =>
    rw [beq_iff_eq.mp h]
    exact short 0x66 0x0C (by decide) rfl
  split
  · next hcontrol =>
    rw [bytes_control hcontrol]
    refine ⟨1, by simp, fun fuel rest => ⟨?_, pass_control hcontrol fuel rest⟩⟩
    have hread := content_control hcontrol fuel rest
    rwa [Char.ofNat_toNat] at hread
  · next hquote hslash _ _ _ _ _ hcontrol =>
    have hordinary := ordinary_utf8EncodeChar (by simpa using hquote) (by simpa using hslash)
      hcontrol
    have hbytes : bytes [c] = String.utf8EncodeChar c := List.append_nil _
    rw [hbytes]
    exact ⟨_, Nat.le_refl _, fun fuel rest =>
      ⟨content_ordinary hordinary fuel rest, pass_ordinary hordinary fuel rest⟩⟩

theorem read_escaped (cs : List Char) (rest : Bytes) {fuel : Nat}
    (h : (bytes (cs.flatMap escapeChar)).length < fuel) :
    content fuel (bytes (cs.flatMap escapeChar) ++ 0x22 :: rest) = .ok (bytes cs, rest) ∧
      pass fuel (bytes (cs.flatMap escapeChar) ++ 0x22 :: rest) = .ok rest := by
  induction cs generalizing fuel with
  | nil =>
    obtain ⟨fuel, rfl⟩ := Nat.exists_eq_succ_of_ne_zero (Nat.ne_of_gt (Nat.zero_lt_of_lt h))
    exact ⟨rfl, rfl⟩
  | cons c cs ih =>
    obtain ⟨k, hk, hread⟩ := read_escapeChar c
    rw [List.flatMap_cons, bytes_append, List.length_append] at h
    have hfuel : fuel = fuel - k + k := by omega
    obtain ⟨hcontent, hpass⟩ := hread (fuel - k) (bytes (cs.flatMap escapeChar) ++ 0x22 :: rest)
    have hleft : (bytes (cs.flatMap escapeChar)).length < fuel - k := by omega
    obtain ⟨hrest, hskip⟩ := ih hleft
    rw [List.flatMap_cons, bytes_append, List.append_assoc, hfuel, hcontent, hpass, hrest, hskip,
      bytes_cons]
    exact ⟨rfl, rfl⟩

theorem bytes_stringChars (s : String) :
    bytes (stringChars s) = 0x22 :: (bytes (s.toList.flatMap escapeChar) ++ [0x22]) := by
  rw [stringChars, List.cons_append, bytes_ascii (by decide), bytes_append]
  rfl

theorem literal_stringChars (s : String) (rest : Bytes) :
    literal (bytes (s.toList.flatMap escapeChar) ++ 0x22 :: rest) = (.text s, some rest) := by
  have hlength : (bytes (s.toList.flatMap escapeChar)).length <
      (bytes (s.toList.flatMap escapeChar) ++ 0x22 :: rest).length + 1 := by
    rw [List.length_append]
    omega
  obtain ⟨hcontent, hpass⟩ := read_escaped s.toList rest hlength
  have hdecode : decode? (bytes s.toList) = some s := decode?_encode s
  rw [literal, hpass, hcontent]
  dsimp only
  rw [hdecode]

end Json.Document

namespace Json.Numeral

open Text

def Ends (rest : Bytes) : Prop :=
  ∃ b tail, rest = b :: tail ∧ (b = 0x2C ∨ b = 0x7D)

theorem isDigit_char {c : Char} (h : c.isDigit) :
    isDigit (UInt8.ofNat c.toNat) ∧ digit (UInt8.ofNat c.toNat) = digitValue c ∧
      c.toNat < 0x80 := by
  have hrange : 48 ≤ c.toNat ∧ c.toNat ≤ 57 := by
    simpa [Char.isDigit, UInt32.le_iff_toNat_le] using h
  have hbyte : c.toNat < 256 := by omega
  refine ⟨?_, ?_, by omega⟩
  · simp only [isDigit, UInt8.le_iff_toNat_le, toNat_byte hbyte, UInt8.reduceToNat,
      Bool.and_eq_true, decide_eq_true_eq]
    exact hrange
  · rw [digit, toNat_byte hbyte]
    rfl

theorem run_digits {cs : List Char} (h : ∀ c ∈ cs, c.isDigit) {rest : Bytes} (hends : Ends rest) :
    run (bytes cs ++ rest) = (cs.map digitValue, rest) := by
  induction cs with
  | nil =>
    obtain ⟨b, tail, rfl, rfl | rfl⟩ := hends <;> rfl
  | cons c cs ih =>
    obtain ⟨hdigit, hvalue, hascii⟩ := isDigit_char (h c List.mem_cons_self)
    have hrest := ih fun d hd => h d (List.mem_cons_of_mem _ hd)
    rw [bytes_ascii hascii, List.cons_append, run, if_pos hdigit, hrest, hvalue]
    rfl

theorem ofDigits_map (cs : List Char) : ofDigits (cs.map digitValue) = digitsValue cs := by
  rw [ofDigits, List.foldl_map, digitsValue]

theorem scanWhole_toDigits (n : Nat) {rest : Bytes} (hends : Ends rest) :
    scanWhole (bytes (Nat.toDigits 10 n) ++ rest) =
      .ok ((Nat.toDigits 10 n).map digitValue, rest) := by
  have hall : ∀ c ∈ Nat.toDigits 10 n, c.isDigit := fun c => isDigit_of_mem_toDigits
  have hrun := run_digits hall hends
  obtain ⟨c, cs, hcs⟩ := List.exists_cons_of_ne_nil (Nat.toDigits_ne_nil (b := 10) (n := n))
  by_cases hzero : c = '0'
  · -- a leading zero is the whole numeral
    obtain rfl : n = 0 := toDigits_cons_zero (hzero ▸ hcs)
    obtain ⟨b, tail, rfl, rfl | rfl⟩ := hends <;> rfl
  · obtain ⟨hdigit, -, hascii⟩ := isDigit_char (hall c (hcs ▸ List.mem_cons_self))
    have hbyte : UInt8.ofNat c.toNat ≠ 0x30 := by
      have hc : c.toNat ≠ 0x30 := fun h => hzero (Char.toNat_inj.mp h)
      rwa [ne_eq, ← UInt8.toNat_inj, toNat_byte (Nat.lt_trans hascii (by decide))]
    rw [hcs, bytes_ascii hascii, List.cons_append] at hrun ⊢
    rw [scanWhole.eq_def]
    dsimp only
    rw [if_neg hbyte, if_pos hdigit, hrun]

theorem scan_toDigits (n : Nat) {rest : Bytes} (hends : Ends rest) :
    scan (bytes (Nat.toDigits 10 n) ++ rest) =
      .ok (⟨false, (Nat.toDigits 10 n).map digitValue, [], none⟩, rest) := by
  have hwhole := scanWhole_toDigits n hends
  have hfraction : scanFraction rest = .ok ([], rest) := by
    obtain ⟨b, tail, rfl, rfl | rfl⟩ := hends <;> rfl
  have hexponent : scanExponent rest = .ok (none, rest) := by
    obtain ⟨b, tail, rfl, rfl | rfl⟩ := hends <;> rfl
  obtain ⟨c, cs, hcs⟩ := List.exists_cons_of_ne_nil (Nat.toDigits_ne_nil (b := 10) (n := n))
  obtain ⟨hdigit, -, hascii⟩ := isDigit_char (isDigit_of_mem_toDigits (hcs ▸ List.mem_cons_self))
  have hunsigned : UInt8.ofNat c.toNat ≠ 0x2D := by
    intro hminus
    rw [hminus] at hdigit
    exact absurd hdigit (by decide)
  rw [hcs, bytes_ascii hascii, List.cons_append] at hwhole ⊢
  rw [scan, hwhole]
  · dsimp only [bind, Except.bind]
    rw [hfraction]
    dsimp only
    rw [hexponent]
    rfl
  · exact fun _ hhead => hunsigned (List.cons.inj hhead).1

theorem toNumber_toDigits {n : Nat} (h : n < UInt64.size) :
    toNumber ⟨false, (Nat.toDigits 10 n).map digitValue, [], none⟩ = .ok (.natural n) := by
  simp [toNumber, ofDigits_map, digitsValue_toDigits, h]

end Json.Numeral

namespace Json.Document

open Text Numeral

inductive Flat : Value → Prop where
  | text (s : String) : Flat (.string s)
  | natural {n : Nat} (h : n < UInt64.size) : Flat (.nat n)

theorem skipBlank_cons {b : UInt8} (h : 0x20 < b) (rest : Bytes) :
    skipBlank (b :: rest) = b :: rest := by
  have hfour : b ≠ 0x20 ∧ b ≠ 0x0A ∧ b ≠ 0x0D ∧ b ≠ 0x09 := by
    refine ⟨?_, ?_, ?_, ?_⟩ <;>
      (rintro rfl; exact absurd h (by decide))
  simp [skipBlank, hfour]

theorem value_string (s : String) (fuel : Nat) (rest : Bytes) :
    value (fuel + 1) (bytes (stringChars s) ++ rest) = (.string (.text s), some rest) := by
  rw [bytes_stringChars, List.cons_append, List.append_assoc, List.singleton_append,
    value.eq_def]
  dsimp only
  rw [skipBlank_cons (by decide)]
  dsimp only
  rw [if_pos rfl, literal_stringChars]

theorem value_natural {n : Nat} (h : n < UInt64.size) (fuel : Nat) {rest : Bytes}
    (hends : Ends rest) :
    value (fuel + 1) (bytes (Nat.toDigits 10 n) ++ rest) =
      (.number (.ok (.natural n)), some rest) := by
  have hscan := scan_toDigits n hends
  obtain ⟨c, cs, hcs⟩ := List.exists_cons_of_ne_nil (Nat.toDigits_ne_nil (b := 10) (n := n))
  obtain ⟨hdigit, -, hascii⟩ := isDigit_char (isDigit_of_mem_toDigits (hcs ▸ List.mem_cons_self))
  generalize hb : UInt8.ofNat c.toNat = b at hdigit
  -- a digit opens nothing and is no letter
  have hbyte : 0x20 < b ∧ b ≠ 0x22 ∧ b ≠ 0x7B ∧ b ≠ 0x5B ∧ b ≠ 0x6E ∧ b ≠ 0x74 ∧ b ≠ 0x66 := by
    simp only [isDigit, UInt8.le_iff_toNat_le, UInt8.reduceToNat, Bool.and_eq_true,
      decide_eq_true_eq] at hdigit
    simp only [UInt8.lt_iff_toNat_lt, ne_eq, ← UInt8.toNat_inj, UInt8.reduceToNat]
    omega
  obtain ⟨hblank, hquote, hbrace, hbracket, hn, ht, hf⟩ := hbyte
  rw [hcs, bytes_ascii hascii, hb, List.cons_append] at hscan ⊢
  rw [value.eq_def]
  dsimp only
  rw [skipBlank_cons hblank]
  dsimp only
  rw [if_neg hquote, if_neg hbrace, if_neg hbracket, if_neg hn, if_neg ht, if_neg hf, numeral,
    hscan]
  dsimp only
  rw [← hcs, toNumber_toDigits h]

theorem value_flat {v : Value} (h : Flat v) (fuel : Nat) {rest : Bytes} (hends : Ends rest) :
    value (fuel + 1) (bytes v.chars ++ rest) = (ofValue v, some rest) := by
  cases h with
  | text s =>
    rw [Value.chars, value_string]
    rfl
  | natural h =>
    rw [Value.nat, Value.chars, Number.chars, value_natural h fuel hends]
    rfl

theorem members_cons (k : String) {v : Value} (h : Flat v) (fuel : Nat) (first : Bool)
    {b : UInt8} (after : Bytes) (hb : b = 0x2C ∨ b = 0x7D) :
    members (fuel + 2) first (bytes (stringChars k) ++ 0x3A :: (bytes v.chars ++ b :: after)) =
      if b = 0x2C then
        let (ms, closing, last) := members (fuel + 1) false after
        ((.text k, ofValue v) :: ms, closing, last)
      else ([(.text k, ofValue v)], .closed, some after) := by
  have hvalue := value_flat h fuel ⟨b, after, rfl, hb⟩
  rw [bytes_stringChars, List.cons_append, List.append_assoc, List.singleton_append,
    members.eq_def]
  dsimp only
  rw [skipBlank_cons (by decide)]
  simp only [literal_stringChars]
  rw [skipBlank_cons (by decide)]
  simp only [hvalue]
  rcases hb with rfl | rfl
  · rw [skipBlank_cons (by decide), if_pos rfl]
    simp only
  · rw [skipBlank_cons (by decide), if_neg (by decide)]
    simp only

theorem members_flat {ms : List (String × Value)} (flat : ∀ m ∈ ms, Flat m.2) (fuel : Nat)
    (hfuel : ms.length < fuel) (first : Bool) (hfirst : first = true ∨ ms ≠ []) (rest : Bytes) :
    members fuel first (bytes (Value.membersChars ms) ++ rest) =
      (ofMembers ms, .closed, some rest) := by
  induction ms generalizing fuel first with
  | nil =>
    obtain ⟨fuel, rfl⟩ := Nat.exists_eq_succ_of_ne_zero (Nat.ne_of_gt hfuel)
    have hbyte : bytes (Value.membersChars []) = [0x7D] := rfl
    rw [hbyte, List.singleton_append, members.eq_def]
    dsimp only
    rw [skipBlank_cons (by decide)]
    simp only
    rw [if_pos (hfirst.resolve_right fun h => h rfl)]
    rfl
  | cons m ms ih =>
    obtain ⟨k, v⟩ := m
    have hv : Flat v := flat (k, v) List.mem_cons_self
    obtain ⟨fuel, rfl⟩ : ∃ f, fuel = f + 2 := ⟨fuel - 2, by simp at hfuel; omega⟩
    cases ms with
    | nil =>
      have hbytes : bytes (Value.membersChars [(k, v)]) ++ rest =
          bytes (stringChars k) ++ 0x3A :: (bytes v.chars ++ 0x7D :: rest) := by
        rw [Value.membersChars, bytes_append, bytes_ascii (by decide), bytes_append,
          List.append_assoc, List.cons_append, List.append_assoc]
        rfl
      rw [hbytes, members_cons k hv fuel first rest (.inr rfl), if_neg (by decide)]
      rfl
    | cons m ms =>
      have hbytes : bytes (Value.membersChars ((k, v) :: m :: ms)) ++ rest =
          bytes (stringChars k) ++ 0x3A :: (bytes v.chars ++ 0x2C ::
            (bytes (Value.membersChars (m :: ms)) ++ rest)) := by
        rw [Value.membersChars, bytes_append, bytes_ascii (by decide), bytes_append,
          bytes_ascii (by decide), List.append_assoc, List.cons_append, List.append_assoc]
        rfl
      have hrest := ih (fun x hx => flat x (List.mem_cons_of_mem _ hx)) (fuel + 1)
        (by simp at hfuel ⊢; omega) false (.inr nofun)
      rw [hbytes, members_cons k hv fuel first _ (.inl rfl), if_pos rfl, hrest]
      rfl

theorem length_le_bytes (ms : List (String × Value)) :
    ms.length ≤ (bytes (Value.membersChars ms)).length := by
  induction ms with
  | nil => exact Nat.zero_le _
  | cons m ms ih =>
    obtain ⟨k, v⟩ := m
    cases ms with
    | nil =>
      rw [Value.membersChars, bytes_append, bytes_stringChars]
      simp only [List.length_append, List.length_cons, List.length_nil]
      omega
    | cons m ms =>
      rw [Value.membersChars, bytes_append, bytes_ascii (by decide), bytes_append,
        bytes_ascii (by decide)]
      simp only [List.length_append, List.length_cons] at ih ⊢
      omega

theorem parse_object {ms : List (String × Value)} (flat : ∀ m ∈ ms, Flat m.2) :
    Source.parse (encode (Value.object ms).text) = ⟨ofValue (.object ms), false⟩ := by
  have hbytes : encode (Value.object ms).text = 0x7B :: bytes (Value.membersChars ms) := by
    rw [encode_eq, Value.text, String.toList_ofList, Value.chars, bytes_ascii (by decide)]
    rfl
  have hlength := length_le_bytes ms
  have hmembers := members_flat flat
    (2 * ((bytes (Value.membersChars ms)).length + 1) + 1) (by omega)
    true (.inl rfl) []
  rw [List.append_nil] at hmembers
  have hvalue : value (2 * (0x7B :: bytes (Value.membersChars ms)).length + 2)
      (0x7B :: bytes (Value.membersChars ms)) = (ofValue (.object ms), some []) := by
    rw [List.length_cons, value.eq_def]
    dsimp only
    rw [skipBlank_cons (by decide)]
    dsimp only
    rw [if_neg (by decide), if_pos rfl, hmembers]
    rfl
  rw [Source.parse, hbytes, hvalue]
  rfl

end Json.Document
end OutcomeRelay
