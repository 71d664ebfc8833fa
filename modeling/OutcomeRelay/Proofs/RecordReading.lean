import Mathlib.Logic.Function.Basic
import OutcomeRelay.Event.Wire
import OutcomeRelay.Proofs.FreeFormValues

/-!
Records that are read member by member. A field is filled by the only member of its name, and a
member of another name is left to the rest of the record. So a record that was read depends neither
on the order of the members nor on anything but those of its own names and what it keeps of the
others.
-/

namespace OutcomeRelay

open Json

theorem once_eq_ok_iff {α β : Type} {name : String} {old : Option β} {value : Except Json.Error β}
    {store : β → α} {a : α} :
    once name old value store = .ok a ↔ old = none ∧ ∃ b, value = .ok b ∧ store b = a := by
  cases old <;> simp [once, map_eq_ok_iff]

/-- What a field holds after the members of its name: each of them asks for an empty field. -/
def Filled {β : Type} (read : Json.Document → Except Json.Error β) :
    Option β → List (String × Value) → Option β → Prop
  | old, [], new => new = old
  | old, m :: ms, new => old = none ∧ ∃ b, read (.ofValue m.2) = .ok b ∧ Filled read (some b) ms new

section Filled

variable {β : Type} {read : Json.Document → Except Json.Error β} {old new : Option β}
  {ms : List (String × Value)}

theorem Filled.eq_nil {b : β} (h : Filled read (some b) ms new) : ms = [] := by
  cases ms with
  | nil => rfl
  | cons m ms => cases h.1

theorem Filled.length_le_one (h : Filled read old ms new) : ms.length ≤ 1 := by
  cases ms with
  | nil => exact Nat.zero_le _
  | cons m ms =>
    obtain ⟨-, b, -, hrest⟩ := h
    rw [hrest.eq_nil]
    exact Nat.le_refl _

end Filled

namespace Json.Document

def Kept {β : Type} (read read' : Document → Except Error β) (d : Document) : Prop :=
  ∀ b, read d = .ok b → ∃ v, value? 126 d = .ok v ∧ read' (ofValue v) = .ok b

theorem foldlM_values {α : Type} {take take' : α → String → Document → Except Error α}
    (kept : ∀ a name d, Kept (take a name) (take' a name) d) {ms : List (Literal × Document)}
    {a a' : α} (h : ms.foldlM (fun a m => do take a (← key m) m.2) a = .ok a') :
    ∃ vs, members? 126 ms = .ok vs ∧
      vs.foldlM (fun a m => take' a m.1 (ofValue m.2)) a = .ok a' := by
  induction ms generalizing a with
  | nil => exact ⟨[], rfl, h⟩
  | cons m ms ih =>
    simp only [List.foldlM_cons, bind_eq_ok_iff] at h
    obtain ⟨a₁, ⟨name, hname, hfirst⟩, hrest⟩ := h
    obtain ⟨v, hv, hfirst'⟩ := kept a name m.2 a₁ hfirst
    obtain ⟨vs, hvs, hrest'⟩ := ih hrest
    refine ⟨(name, v) :: vs, members?_eq_ok_iff.mpr (.cons ⟨hname, hv⟩ ?_), ?_⟩
    · exact members?_eq_ok_iff.mp hvs
    · rw [List.foldlM_cons, hfirst']
      exact hrest'

end Json.Document

structure Layout (α ρ : Type) where
  Field : Type
  [decidableEq : DecidableEq Field]
  fields : List Field
  mem_fields : ∀ f, f ∈ fields
  name : Field → String
  name_injective : name.Injective
  Slot : Field → Type
  slot : α → (f : Field) → Option (Slot f)
  rest : α → ρ
  make : ((f : Field) → Option (Slot f)) → ρ → α
  slot_make : ∀ s r f, slot (make s r) f = s f
  rest_make : ∀ s r, rest (make s r) = r
  make_slot : ∀ a, make (slot a) (rest a) = a

namespace Layout

attribute [instance] Layout.decidableEq
attribute [simp] slot_make rest_make make_slot

variable {α ρ : Type} {L : Layout α ρ} {a a' : α} {ms ms' : List (String × Value)}

def names (L : Layout α ρ) : List String :=
  L.fields.map L.name

theorem mem_names {name : String} : name ∈ L.names ↔ ∃ f, L.name f = name := by
  simp [names, L.mem_fields]

def fill (L : Layout α ρ) (a : α) (f : L.Field) (b : L.Slot f) : α :=
  L.make (Function.update (L.slot a) f (some b)) (L.rest a)

def others (L : Layout α ρ) (ms : List (String × Value)) : List (String × Value) :=
  ms.filter fun m => m.1 ∉ L.names

theorem ext (hslot : ∀ f, L.slot a f = L.slot a' f) (hrest : L.rest a = L.rest a') : a = a' := by
  rw [← L.make_slot a, ← L.make_slot a', funext hslot, hrest]

theorem others_cons_own (f : L.Field) (v : Value) (ms : List (String × Value)) :
    L.others ((L.name f, v) :: ms) = L.others ms :=
  List.filter_cons_of_neg (by simpa using mem_names.mpr ⟨f, rfl⟩)

theorem others_cons_other {name : String} (h : name ∉ L.names) (v : Value)
    (ms : List (String × Value)) : L.others ((name, v) :: ms) = (name, v) :: L.others ms :=
  List.filter_cons_of_pos (by simpa using h)

theorem mem_of_mem_others {m : String × Value} (h : m ∈ L.others ms) : m ∈ ms :=
  List.mem_of_mem_filter h

theorem named_others {name : String} (h : name ∉ L.names) (ms : List (String × Value)) :
    Value.named name (L.others ms) = Value.named name ms := by
  rw [others, Value.named, List.filter_filter]
  refine List.filter_congr fun m _ => ?_
  by_cases hm : m.1 = name
  · simp [hm, h]
  · simp [hm]

theorem named_cons_other {name : String} (h : name ∉ L.names) (v : Value)
    (ms : List (String × Value)) (f : L.Field) :
    Value.named (L.name f) ((name, v) :: ms) = Value.named (L.name f) ms :=
  Value.named_cons_of_ne (fun hf => h (mem_names.mpr ⟨f, hf.symm⟩)) v ms

theorem filled_cons_own_iff {read : (f : L.Field) → Document → Except Json.Error (L.Slot f)}
    {old new : (f : L.Field) → Option (L.Slot f)} {f : L.Field} {v : Value} :
    (∀ g, Filled (read g) (old g) (Value.named (L.name g) ((L.name f, v) :: ms)) (new g)) ↔
      old f = none ∧ ∃ b, read f (.ofValue v) = .ok b ∧ ∀ g,
        Filled (read g) (Function.update old f (some b) g) (Value.named (L.name g) ms) (new g) := by
  have hne : ∀ g, g ≠ f →
      Value.named (L.name g) ((L.name f, v) :: ms) = Value.named (L.name g) ms :=
    fun g hg => Value.named_cons_of_ne (fun he => hg (L.name_injective he.symm)) v ms
  constructor
  · intro h
    have hf := h f
    rw [Value.named_cons_self] at hf
    obtain ⟨hempty, b, hb, hf⟩ := hf
    refine ⟨hempty, b, hb, fun g => ?_⟩
    by_cases hg : g = f
    · subst hg
      rwa [Function.update_self]
    · rw [Function.update_of_ne hg, ← hne g hg]
      exact h g
  · rintro ⟨hempty, b, hb, h⟩ g
    have hrest := h g
    by_cases hg : g = f
    · subst hg
      rw [Function.update_self] at hrest
      rw [Value.named_cons_self]
      exact ⟨hempty, b, hb, hrest⟩
    · rw [Function.update_of_ne hg] at hrest
      rwa [hne g hg]

structure Reads (L : Layout α ρ) (take : α → String → Document → Except Json.Error α)
    (read : (f : L.Field) → Document → Except Json.Error (L.Slot f))
    (skip : ρ → String → Document → Except Json.Error ρ) : Prop where
  own : ∀ a f d, take a (L.name f) d = once (L.name f) (L.slot a f) (read f d) (L.fill a f)
  other : ∀ a name d, name ∉ L.names →
    take a name d = (skip (L.rest a) name d).map (L.make (L.slot a))

namespace Reads

variable {take : α → String → Document → Except Json.Error α}
  {read : (f : L.Field) → Document → Except Json.Error (L.Slot f)}
  {skip : ρ → String → Document → Except Json.Error ρ}

/-- A record is read from members iff each of its fields is filled by those of its name, and the
others are skipped. -/
theorem foldlM_eq_ok_iff (h : L.Reads take read skip) :
    ms.foldlM (fun a m => take a m.1 (.ofValue m.2)) a = .ok a' ↔
      (∀ f, Filled (read f) (L.slot a f) (Value.named (L.name f) ms) (L.slot a' f)) ∧
      (L.others ms).foldlM (fun r m => skip r m.1 (.ofValue m.2)) (L.rest a) = .ok (L.rest a') := by
  induction ms generalizing a with
  | nil =>
    constructor
    · intro hread
      obtain rfl := Except.ok.inj hread
      exact ⟨fun f => rfl, rfl⟩
    · rintro ⟨hslot, hrest⟩
      exact congrArg _ (ext (fun f => (hslot f).symm) (Except.ok.inj hrest))
  | cons m ms ih =>
    obtain ⟨name, v⟩ := m
    rw [List.foldlM_cons, bind_eq_ok_iff]
    -- the first member fills a field or goes to the rest; the others are read from there
    by_cases hname : name ∈ L.names
    · obtain ⟨f, rfl⟩ := mem_names.mp hname
      simp only [h.own, once_eq_ok_iff, others_cons_own, filled_cons_own_iff]
      constructor
      · rintro ⟨_, ⟨hempty, b, hb, rfl⟩, hrest⟩
        obtain ⟨hfilled, hskipped⟩ := ih.mp hrest
        simp only [fill, slot_make, rest_make] at hfilled hskipped
        exact ⟨⟨hempty, b, hb, hfilled⟩, hskipped⟩
      · rintro ⟨⟨hempty, b, hb, hfilled⟩, hskipped⟩
        refine ⟨_, ⟨hempty, b, hb, rfl⟩, ih.mpr ?_⟩
        simp only [fill, slot_make, rest_make]
        exact ⟨hfilled, hskipped⟩
    · simp only [h.other _ _ _ hname, map_eq_ok_iff, others_cons_other hname,
        named_cons_other hname, List.foldlM_cons, bind_eq_ok_iff]
      constructor
      · rintro ⟨_, ⟨r, hr, rfl⟩, hrest⟩
        obtain ⟨hfilled, hskipped⟩ := ih.mp hrest
        simp only [slot_make, rest_make] at hfilled hskipped
        exact ⟨hfilled, r, hr, hskipped⟩
      · rintro ⟨hfilled, r, hr, hskipped⟩
        refine ⟨_, ⟨r, hr, rfl⟩, ih.mpr ?_⟩
        simp only [slot_make, rest_make]
        exact ⟨hfilled, hskipped⟩

theorem length_named_le_one (h : L.Reads take read skip)
    (hread : ms.foldlM (fun a m => take a m.1 (.ofValue m.2)) a = .ok a') (f : L.Field) :
    (Value.named (L.name f) ms).length ≤ 1 :=
  ((h.foldlM_eq_ok_iff.mp hread).1 f).length_le_one

theorem foldlM_of_named (h : L.Reads take read skip)
    (hread : ms.foldlM (fun a m => take a m.1 (.ofValue m.2)) a = .ok a')
    (hnamed : ∀ f, Value.named (L.name f) ms' = Value.named (L.name f) ms) {r : ρ}
    (hskip : (L.others ms').foldlM (fun r m => skip r m.1 (.ofValue m.2)) (L.rest a) = .ok r) :
    ms'.foldlM (fun a m => take a m.1 (.ofValue m.2)) a = .ok (L.make (L.slot a') r) := by
  refine h.foldlM_eq_ok_iff.mpr ⟨fun f => ?_, ?_⟩
  · rw [hnamed, slot_make]
    exact (h.foldlM_eq_ok_iff.mp hread).1 f
  · rwa [rest_make]

theorem kept_take (h : L.Reads take read skip)
    {take' : α → String → Document → Except Json.Error α}
    {read' : (f : L.Field) → Document → Except Json.Error (L.Slot f)}
    {skip' : ρ → String → Document → Except Json.Error ρ} (h' : L.Reads take' read' skip')
    {d : Document} (own : ∀ f, Document.Kept (read f) (read' f) d)
    (other : ∀ r name, Document.Kept (skip r name) (skip' r name) d) (a : α) (name : String) :
    Document.Kept (take a name) (take' a name) d := by
  intro a' hread
  by_cases hname : name ∈ L.names
  · obtain ⟨f, rfl⟩ := mem_names.mp hname
    rw [h.own, once_eq_ok_iff] at hread
    obtain ⟨hempty, b, hb, hfill⟩ := hread
    obtain ⟨v, hv, hb'⟩ := own f b hb
    refine ⟨v, hv, ?_⟩
    rw [h'.own, once_eq_ok_iff]
    exact ⟨hempty, b, hb', hfill⟩
  · rw [h.other _ _ _ hname, map_eq_ok_iff] at hread
    obtain ⟨r, hr, hmake⟩ := hread
    obtain ⟨v, hv, hr'⟩ := other _ _ r hr
    refine ⟨v, hv, ?_⟩
    rw [h'.other _ _ _ hname, map_eq_ok_iff]
    exact ⟨r, hr', hmake⟩

end Reads
end Layout
end OutcomeRelay
