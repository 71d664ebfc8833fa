/-!
Blank characters: the code points with the Unicode property `White_Space`. A text of blanks only
counts as empty in validation, and timestamps may be surrounded by blanks.
-/

namespace OutcomeRelay.Text

def wideBlanks : List Nat :=
  [0x85, 0xA0, 0x1680, 0x2000, 0x2001, 0x2002, 0x2003, 0x2004, 0x2005, 0x2006, 0x2007, 0x2008,
    0x2009, 0x200A, 0x2028, 0x2029, 0x202F, 0x205F, 0x3000]

def isBlank (c : Char) : Bool :=
  c == ' ' || (9 ≤ c.toNat && c.toNat ≤ 13) || wideBlanks.contains c.toNat

def blank (s : String) : Bool :=
  s.toList.all isBlank

def trimStart (cs : List Char) : List Char :=
  cs.dropWhile isBlank

end OutcomeRelay.Text
