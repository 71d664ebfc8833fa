import Mathlib.Data.List.Induction
import OutcomeRelay.CommandLine.Arguments

/-!
The grammar of the command line. Arguments are accepted exactly if they can be cut into items, each
of them an option with what belongs to it or a word, and the words ask for something. What comes of
them depends on the words, on the last configuration file and on whether a failure is simulated, so
it makes no difference where among the words the options stand.
-/

namespace OutcomeRelay.CommandLine

/-- What the command line is made of: options with what belongs to them, and words, which start
with no dash. -/
inductive Item where
  | config (brief : Bool) (path : String)
  | simulateFailure
  | word (text : String) (plain : text.toList.head? ≠ some '-')
  deriving DecidableEq

namespace Item

def arguments : Item → List String
  | config brief path => [if brief then "-c" else "--config", path]
  | simulateFailure => ["--simulate-failure"]
  | word text _ => [text]

def path? : Item → Option String
  | config _ path => some path
  | _ => none

def word? : Item → Option String
  | word text _ => some text
  | _ => none

end Item

def Reads (items : List Item) (arguments : List String) : Prop :=
  items.flatMap Item.arguments = arguments

theorem Reads.cons {items : List Item} {rest : List String} (i : Item) (h : Reads items rest) :
    Reads (i :: items) (i.arguments ++ rest) := by
  rw [Reads, List.flatMap_cons, h]

def words (items : List Item) : List String :=
  items.filterMap Item.word?

def options (items : List Item) : List Item :=
  items.filter fun i => i.word?.isNone

def lastPath (items : List Item) : Option String :=
  (items.filterMap Item.path?).getLast?

def simulates (items : List Item) : Bool :=
  decide (Item.simulateFailure ∈ items)

theorem lastPath_options (items : List Item) : lastPath (options items) = lastPath items := by
  have hpath : ∀ i : Item, (if i.word?.isNone = true then i.path? else none) = i.path? := by
    intro i
    cases i <;> rfl
  rw [lastPath, options, List.filterMap_filter]
  simp only [hpath, lastPath]

theorem simulates_options (items : List Item) : simulates (options items) = simulates items := by
  simp [simulates, options, Item.word?]

inductive Asks (simulate : Bool) : List String → Action → Prop
  | nothing : Asks simulate [] (.consume simulate)
  | consume : Asks simulate ["consume"] (.consume simulate)
  | publish (file : String) : Asks simulate ["publish", file] (.publish file)

theorem exists_asks_iff {simulate : Bool} {ws : List String} :
    (∃ a, Asks simulate ws a) ↔
      ws = [] ∨ ws = ["consume"] ∨ ∃ file, ws = ["publish", file] := by
  constructor
  · rintro ⟨_, _ | _ | file⟩
    · exact .inl rfl
    · exact .inr (.inl rfl)
    · exact .inr (.inr ⟨file, rfl⟩)
  · rintro (rfl | rfl | ⟨file, rfl⟩)
    · exact ⟨_, .nothing⟩
    · exact ⟨_, .consume⟩
    · exact ⟨_, .publish file⟩

namespace Sorted

def take (s : Sorted) : Item → Sorted
  | .config _ path => { s with configPath := some path }
  | .simulateFailure => { s with simulateFailure := true }
  | .word text _ => { s with words := s.words ++ [text] }

def ofItems (items : List Item) : Sorted where
  configPath := lastPath items
  simulateFailure := simulates items
  words := CommandLine.words items

theorem take_ofItems (items : List Item) (i : Item) :
    (ofItems items).take i = ofItems (items ++ [i]) := by
  cases i <;> simp [ofItems, take, lastPath, simulates, CommandLine.words, Item.path?, Item.word?]

theorem foldl_take (items : List Item) : items.foldl take {} = ofItems items := by
  -- from the right, since the last path replaces those before it
  induction items using List.reverseRecOn with
  | nil => rfl
  | append_singleton items i ih =>
    rw [List.foldl_append, ih, List.foldl_cons, List.foldl_nil, take_ofItems]

theorem add_arguments (s : Sorted) (i : Item) (rest : List String) :
    s.add (i.arguments ++ rest) = (s.take i).add rest := by
  cases i with
  | config brief path => cases brief <;> rfl
  | simulateFailure =>
    rw [Item.arguments, List.singleton_append, add.eq_def]
    exact (if_neg (by decide)).trans (if_pos rfl)
  | word text plain =>
    have hne : ∀ option : String, option.toList.head? = some '-' → text ≠ option := by
      rintro option hdash rfl
      exact plain hdash
    have hconfig : ¬ (text = "--config" ∨ text = "-c") := not_or.mpr ⟨hne _ rfl, hne _ rfl⟩
    rw [Item.arguments, List.singleton_append, add.eq_def]
    exact (if_neg hconfig).trans ((if_neg (hne _ rfl)).trans (if_neg plain))

theorem add_items (s : Sorted) (items : List Item) :
    s.add (items.flatMap Item.arguments) = .ok (items.foldl take s) := by
  induction items generalizing s with
  | nil => rfl
  | cons i items ih => rw [List.flatMap_cons, add_arguments, ih, List.foldl_cons]

theorem exists_reads {s s' : Sorted} {arguments : List String} (h : s.add arguments = .ok s') :
    ∃ items, Reads items arguments := by
  -- each branch that goes on has passed over the arguments of one item
  fun_induction add s arguments with
  | case1 s => exact ⟨[], rfl⟩
  | case2 s flag _ => cases h
  | case3 s flag hflag path rest ih =>
    obtain ⟨items, hitems⟩ := ih h
    rcases hflag with rfl | rfl
    · exact ⟨_, hitems.cons (.config false path)⟩
    · exact ⟨_, hitems.cons (.config true path)⟩
  | case4 s rest _ ih =>
    obtain ⟨items, hitems⟩ := ih h
    exact ⟨_, hitems.cons .simulateFailure⟩
  | case5 s text rest _ _ _ => cases h
  | case6 s text rest _ _ plain ih =>
    obtain ⟨items, hitems⟩ := ih h
    exact ⟨_, hitems.cons (.word text plain)⟩

theorem action?_eq_ok_iff {s : Sorted} {a : Action} :
    s.action? = .ok a ↔ Asks s.simulateFailure s.words a := by
  constructor
  · intro h
    unfold action? at h
    split at h
    · next hwords =>
      cases h
      exact hwords ▸ .nothing
    · next hwords =>
      cases h
      exact hwords ▸ .consume
    · next file hwords =>
      cases h
      exact hwords ▸ .publish file
    · cases h
    · cases h
  · intro h
    generalize hwords : s.words = ws at h
    cases h <;> simp [action?, hwords]

end Sorted

theorem parse_of_reads {items : List Item} {arguments : List String} (h : Reads items arguments) :
    parse arguments = (Sorted.ofItems items).action?.map fun a => ⟨lastPath items, a⟩ := by
  have hadd : Sorted.add {} arguments = .ok (.ofItems items) := by
    rw [← h, Sorted.add_items, Sorted.foldl_take]
  rw [parse, hadd]
  rfl

theorem exists_reads_of_parse {arguments : List String} {i : Invocation}
    (h : parse arguments = .ok i) : ∃ items, Reads items arguments := by
  cases hadd : Sorted.add {} arguments with
  | error e =>
    rw [parse, hadd] at h
    cases h
  | ok s => exact Sorted.exists_reads hadd

theorem parse_eq_ok_of_reads {items : List Item} {arguments : List String}
    (h : Reads items arguments) {i : Invocation} :
    parse arguments = .ok i ↔
      i.configPath = lastPath items ∧ Asks (simulates items) (words items) i.action := by
  have hasks : Asks (simulates items) (words items) i.action ↔
      (Sorted.ofItems items).action? = .ok i.action :=
    (Sorted.action?_eq_ok_iff (s := .ofItems items)).symm
  rw [parse_of_reads h, hasks]
  cases (Sorted.ofItems items).action? with
  | error e => simp [Except.map]
  | ok a =>
    obtain ⟨path, action⟩ := i
    simp [Except.map, eq_comm]

theorem parse_eq_ok_iff {arguments : List String} {i : Invocation} :
    parse arguments = .ok i ↔ ∃ items, Reads items arguments ∧
      i.configPath = lastPath items ∧ Asks (simulates items) (words items) i.action := by
  constructor
  · intro h
    obtain ⟨items, hitems⟩ := exists_reads_of_parse h
    exact ⟨items, hitems, (parse_eq_ok_of_reads hitems).mp h⟩
  · rintro ⟨items, hitems, h⟩
    exact (parse_eq_ok_of_reads hitems).mpr h

theorem ofItems_congr {items items' : List Item} (hwords : words items' = words items)
    (hoptions : options items' = options items) :
    Sorted.ofItems items' = Sorted.ofItems items := by
  have hpath : lastPath items' = lastPath items := by
    rw [← lastPath_options, hoptions, lastPath_options]
  have hsimulates : simulates items' = simulates items := by
    rw [← simulates_options, hoptions, simulates_options]
  rw [Sorted.ofItems, Sorted.ofItems, hpath, hsimulates, hwords]

structure FollowsGrammar (arguments : List String) : Prop where
  accepts : (∃ i, parse arguments = .ok i) ↔ ∃ items, Reads items arguments ∧
    (words items = [] ∨ words items = ["consume"] ∨ ∃ file, words items = ["publish", file])
  result : ∀ i, parse arguments = .ok i ↔ ∃ items, Reads items arguments ∧
    i.configPath = lastPath items ∧ Asks (simulates items) (words items) i.action
  anywhere : ∀ items items', Reads items arguments → words items' = words items →
    options items' = options items → parse (items'.flatMap Item.arguments) = parse arguments

theorem follows_grammar (arguments : List String) : FollowsGrammar arguments where
  accepts := by
    constructor
    · rintro ⟨i, h⟩
      obtain ⟨items, hitems, -, hasks⟩ := parse_eq_ok_iff.mp h
      exact ⟨items, hitems, exists_asks_iff.mp ⟨_, hasks⟩⟩
    · rintro ⟨items, hitems, hwords⟩
      obtain ⟨a, hasks⟩ := exists_asks_iff.mpr hwords
      exact ⟨⟨lastPath items, a⟩, parse_eq_ok_iff.mpr ⟨items, hitems, rfl, hasks⟩⟩
  result _ := parse_eq_ok_iff
  anywhere items items' hitems hwords hoptions := by
    have hsorted := ofItems_congr hwords hoptions
    have hpath : lastPath items' = lastPath items := congrArg Sorted.configPath hsorted
    rw [parse_of_reads rfl, parse_of_reads hitems, hsorted, hpath]

/-- A path may look like an option or like a word, and options may stand between the words. -/
theorem follows_grammar_scattered :
    parse ["--config", "-c", "publish", "--simulate-failure", "-c", "publish", "e.json"] =
        .ok ⟨some "publish", .publish "e.json"⟩ ∧
      parse ["--config", "-c", "--simulate-failure", "-c", "publish", "publish", "e.json"] =
        parse ["--config", "-c", "publish", "--simulate-failure", "-c", "publish", "e.json"] := by
  let publish : Item := .word "publish" (by decide)
  let file : Item := .word "e.json" (by decide)
  let scattered := [.config false "-c", publish, .simulateFailure, .config true "publish", file]
  let gathered := [.config false "-c", .simulateFailure, .config true "publish", publish, file]
  have hgrammar := follows_grammar
    ["--config", "-c", "publish", "--simulate-failure", "-c", "publish", "e.json"]
  exact ⟨(hgrammar.result _).mpr ⟨scattered, rfl, rfl, .publish "e.json"⟩,
    hgrammar.anywhere scattered gathered rfl rfl rfl⟩

end OutcomeRelay.CommandLine
