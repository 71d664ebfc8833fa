/-!
Topic patterns. Keys and patterns are words parted by dots; `*` stands for one word and `#` for any
number of them, none included. `Matches` states the pattern language word by word and `matchWords`
decides it.
-/

namespace OutcomeRelay.Pattern

abbrev Word := List Char

/-- The words of a text. The empty text is one empty word. -/
def words : List Char → List Word
  | [] => [[]]
  | c :: cs =>
    if c = '.' then [] :: words cs
    else
      match words cs with
      | w :: ws => (c :: w) :: ws
      | [] => [[c]]

def many : Word :=
  ['#']

def one : Word :=
  ['*']

/-- The key is cut into segments, one for each pattern word in order. -/
inductive Matches : List Word → List Word → Prop where
  | nil : Matches [] []
  | many (segment : List Word) {ps ks : List Word} (h : Matches ps ks) :
      Matches (Pattern.many :: ps) (segment ++ ks)
  | one (k : Word) {ps ks : List Word} (h : Matches ps ks) : Matches (Pattern.one :: ps) (k :: ks)
  | word (w : Word) {ps ks : List Word} (h : Matches ps ks) : Matches (w :: ps) (w :: ks)

def matchWords : List Word → List Word → Bool
  | [], ks => ks.isEmpty
  | p :: ps, ks =>
    if p = many then (List.range (ks.length + 1)).any fun n => matchWords ps (ks.drop n)
    else
      match ks with
      | [] => false
      | k :: ks' => (p = one || p = k) && matchWords ps ks'

def matchesKey (pattern key : String) : Bool :=
  matchWords (words pattern.toList) (words key.toList)

theorem words_ne_nil (cs : List Char) : words cs ≠ [] := by
  cases cs with
  | nil => simp [words]
  | cons c cs =>
    unfold words
    split
    · simp
    · split <;> simp

end OutcomeRelay.Pattern
