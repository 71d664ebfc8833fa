/-!
Masking of card and account numbers. Only digits and stars are kept; of these all but the last four
become stars.
-/

namespace OutcomeRelay.Masking

def isKept (c : Char) : Bool :=
  c.isDigit || c == '*'

def maskKept (cs : List Char) : List Char :=
  List.replicate (cs.length - 4) '*' ++ cs.drop (cs.length - 4)

def maskChars (cs : List Char) : List Char :=
  maskKept (cs.filter isKept)

def mask (s : String) : String :=
  String.ofList (maskChars s.toList)

theorem length_maskKept (cs : List Char) : (maskKept cs).length = cs.length := by
  simp only [maskKept, List.length_append, List.length_replicate, List.length_drop]
  omega

end OutcomeRelay.Masking
