import Mathlib.Data.List.Forall2
import Mathlib.Data.List.Induction
import Mathlib.Data.String.Basic
import OutcomeRelay.Json.Reader

/-!
Free-form values of trees. The members of an object are read one by one and then kept in the order
of their names, the last one of each name. A value that was read is read from its own tree again.
-/

namespace OutcomeRelay.Json

theorem bind_eq_ok_iff {ε α β : Type} {x : Except ε α} {next : α → Except ε β} {b : β} :
    (x >>= next) = .ok b ↔ ∃ a, x = .ok a ∧ next a = .ok b := by
  cases x <;> simp [bind, Except.bind]

theorem map_eq_ok_iff {ε α β : Type} {x : Except ε α} {f : α → β} {b : β} :
    x.map f = .ok b ↔ ∃ a, x = .ok a ∧ f a = b := by
  cases x <;> simp [Except.map]

namespace Value

def Ascending (ms : List (String × Value)) : Prop :=
  ms.Pairwise fun m m' => m.1 < m'.1

variable {ms : List (String × Value)} {name key : String} {v : Value}

theorem mem_insert {m : String × Value} (h : m ∈ insert key v ms) : m = (key, v) ∨ m ∈ ms := by
  induction ms with
  | nil => exact .inl (List.mem_singleton.mp h)
  | cons m' ms ih =>
    obtain ⟨k, w⟩ := m'
    rw [insert] at h
    split at h
    · exact List.mem_cons.mp h
    split at h
    · exact (List.mem_cons.mp h).imp_right fun hold => List.mem_cons_of_mem _ hold
    · rcases List.mem_cons.mp h with rfl | hrest
      · exact .inr (List.mem_cons_self ..)
      · exact (ih hrest).imp_right fun hold => List.mem_cons_of_mem _ hold

theorem Ascending.insert (h : Ascending ms) (key : String) (v : Value) :
    Ascending (insert key v ms) := by
  induction ms with
  | nil => exact List.pairwise_singleton _ _
  | cons m ms ih =>
    obtain ⟨k, w⟩ := m
    obtain ⟨hfirst, hrest⟩ := List.pairwise_cons.mp h
    rw [Value.insert]
    split
    · next hbefore =>
      refine List.pairwise_cons.mpr ⟨fun m hm => ?_, h⟩
      rcases List.mem_cons.mp hm with rfl | hm
      · exact hbefore
      · exact lt_trans hbefore (hfirst m hm)
    split
    · next hsame =>
      subst hsame
      exact List.pairwise_cons.mpr ⟨hfirst, hrest⟩
    · next hbefore hsame =>
      have hafter : k < key := lt_of_le_of_ne (not_lt.mp hbefore) (Ne.symm hsame)
      refine List.pairwise_cons.mpr ⟨fun m hm => ?_, ih hrest⟩
      rcases mem_insert hm with rfl | hm
      · exact hafter
      · exact hfirst m hm

theorem sorted_concat (ms : List (String × Value)) (m : String × Value) :
    sorted (ms ++ [m]) = insert m.1 m.2 (sorted ms) :=
  List.foldl_concat ..

theorem ascending_sorted (ms : List (String × Value)) : Ascending (sorted ms) := by
  induction ms using List.reverseRecOn with
  | nil => exact .nil
  | append_singleton ms m ih =>
    rw [sorted_concat]
    exact ih.insert m.1 m.2

theorem mem_of_mem_sorted {m : String × Value} (h : m ∈ sorted ms) : m ∈ ms := by
  induction ms using List.reverseRecOn with
  | nil => exact h
  | append_singleton ms m' ih =>
    rw [sorted_concat] at h
    rcases mem_insert h with rfl | hold
    · exact List.mem_append_right _ (.head _)
    · exact List.mem_append_left _ (ih hold)

theorem insert_of_above (above : ∀ m ∈ ms, m.1 < key) (v : Value) :
    insert key v ms = ms ++ [(key, v)] := by
  induction ms with
  | nil => rfl
  | cons m ms ih =>
    obtain ⟨k, w⟩ := m
    have hk : k < key := above (k, w) (List.mem_cons_self ..)
    rw [insert, if_neg (lt_asymm hk), if_neg (ne_of_gt hk),
      ih fun m hm => above m (List.mem_cons_of_mem _ hm), List.cons_append]

theorem sorted_of_ascending (h : Ascending ms) : sorted ms = ms := by
  induction ms using List.reverseRecOn with
  | nil => rfl
  | append_singleton ms m ih =>
    obtain ⟨hms, -, hlast⟩ := List.pairwise_append.mp h
    have habove : ∀ m' ∈ ms, m'.1 < m.1 := fun m' hm' => hlast m' hm' m (.head _)
    rw [sorted_concat, ih hms, insert_of_above habove]

def named (name : String) (ms : List (String × Value)) : List (String × Value) :=
  ms.filter fun m => m.1 == name

theorem named_cons_self (name : String) (v : Value) (ms : List (String × Value)) :
    named name ((name, v) :: ms) = (name, v) :: named name ms :=
  List.filter_cons_of_pos (by simp)

theorem named_cons_of_ne (h : key ≠ name) (v : Value) (ms : List (String × Value)) :
    named name ((key, v) :: ms) = named name ms :=
  List.filter_cons_of_neg (by simpa using h)

theorem named_of_above (above : ∀ m ∈ ms, name < m.1) : named name ms = [] :=
  List.filter_eq_nil_iff.mpr fun m hm => by simpa using ne_of_gt (above m hm)

theorem named_insert (h : Ascending ms) (key : String) (v : Value) (name : String) :
    named name (insert key v ms) = if key = name then [(key, v)] else named name ms := by
  induction ms with
  | nil =>
    by_cases hk : key = name <;> simp [insert, named, hk]
  | cons m ms ih =>
    obtain ⟨k, w⟩ := m
    obtain ⟨hfirst, hrest⟩ := List.pairwise_cons.mp h
    rw [insert]
    split
    · next hbefore =>
      split
      · next hk =>
        subst hk
        have habove : ∀ m ∈ (k, w) :: ms, key < m.1 :=
          List.forall_mem_cons.mpr ⟨hbefore, fun m hm => lt_trans hbefore (hfirst m hm)⟩
        rw [named_cons_self, named_of_above habove]
      · next hk => exact named_cons_of_ne hk v _
    split
    · next hsame =>
      subst hsame
      split
      · next hk =>
        subst hk
        rw [named_cons_self, named_of_above hfirst]
      · next hk => rw [named_cons_of_ne hk, named_cons_of_ne hk]
    · next hbefore hsame =>
      by_cases hk : k = name
      · subst hk
        rw [named_cons_self, ih hrest, if_neg hsame, if_neg hsame, named_cons_self]
      · rw [named_cons_of_ne hk, named_cons_of_ne hk, ih hrest]

theorem named_sorted (name : String) (ms : List (String × Value)) :
    named name (sorted ms) = (named name ms).getLast?.toList := by
  induction ms using List.reverseRecOn with
  | nil => rfl
  | append_singleton ms m ih =>
    rw [sorted_concat, named_insert (ascending_sorted ms)]
    by_cases hm : m.1 = name
    · rw [if_pos hm, named, List.filter_append, List.filter_cons_of_pos (by simpa using hm)]
      simp
    · rw [if_neg hm, ih, named, named, List.filter_append,
        List.filter_cons_of_neg (by simpa using hm), List.filter_nil, List.append_nil]

theorem named_sorted_of_single (h : (named name ms).length ≤ 1) :
    named name (sorted ms) = named name ms := by
  rw [named_sorted]
  match hms : named name ms, h with
  | [], _ => rfl
  | [m], _ => rfl

end Value

namespace Document

theorem members?_eq_ok_iff {depth : Nat} {ms : List (Literal × Document)}
    {vs : List (String × Value)} : members? depth ms = .ok vs ↔
      List.Forall₂ (fun m v => key m = .ok v.1 ∧ value? depth m.2 = .ok v.2) ms vs := by
  induction ms generalizing vs with
  | nil => simp [members?, eq_comm]
  | cons m ms ih =>
    simp only [members?, bind_eq_ok_iff, ih, List.forall₂_cons_left_iff]
    constructor
    · rintro ⟨name, hname, v, hv, vs', hvs, hsame⟩
      exact ⟨(name, v), vs', ⟨hname, hv⟩, hvs, (Except.ok.inj hsame).symm⟩
    · rintro ⟨⟨name, v⟩, vs', ⟨hname, hv⟩, hvs, rfl⟩
      exact ⟨name, hname, v, hv, vs', hvs, rfl⟩

theorem members?_ofMembers {depth : Nat} {ms : List (String × Value)}
    (h : ∀ m ∈ ms, value? depth (ofValue m.2) = .ok m.2) :
    members? depth (ofMembers ms) = .ok ms := by
  induction ms with
  | nil => rfl
  | cons m ms ih =>
    have hfirst := h m (List.mem_cons_self ..)
    have hrest := ih fun m' hm' => h m' (List.mem_cons_of_mem _ hm')
    simp only [ofMembers, members?, key, hfirst, hrest, bind, Except.bind]
    rfl

mutual

theorem value?_ofValue {depth : Nat} {d : Document} {v : Value} (h : value? depth d = .ok v) :
    value? depth (ofValue v) = .ok v := by
  match d, depth with
  | .null, _ | .bool _, _ | .number (.ok _), _ | .string (.text _), _ =>
    rw [value?] at h
    obtain rfl := Except.ok.inj h
    rfl
  | .number (.error _), _ | .string .unreadable, _ | .string (.broken ..), _ | .garbled _, _
  | .broken _, _ | .array .., 0 | .object .., 0 =>
    rw [value?] at h
    cases h
  | .array ds closing, depth + 1 =>
    simp only [value?, bind_eq_ok_iff] at h
    obtain ⟨vs, hvs, -, -, hv⟩ := h
    obtain rfl := Except.ok.inj hv
    have hread := items?_ofItems hvs
    simp only [ofValue, value?, hread, Closing.check, bind, Except.bind]
    rfl
  | .object ms closing, depth + 1 =>
    simp only [value?, bind_eq_ok_iff] at h
    obtain ⟨vs, hvs, -, -, hv⟩ := h
    obtain rfl := Except.ok.inj hv
    have heach := value?_ofMembers hvs
    have hread : members? depth (ofMembers (Value.sorted vs)) = .ok (Value.sorted vs) :=
      members?_ofMembers fun m hm => heach m (Value.mem_of_mem_sorted hm)
    simp only [ofValue, value?, hread, Closing.check, bind, Except.bind,
      Value.sorted_of_ascending (Value.ascending_sorted vs)]
    rfl

theorem items?_ofItems {depth : Nat} {ds : List Document} {vs : List Value}
    (h : items? depth ds = .ok vs) : items? depth (ofItems vs) = .ok vs := by
  match ds with
  | [] =>
    obtain rfl := Except.ok.inj h
    rfl
  | d :: ds =>
    simp only [items?, bind_eq_ok_iff] at h
    obtain ⟨v, hv, vs', hvs, hsame⟩ := h
    obtain rfl := Except.ok.inj hsame
    simp only [ofItems, items?, value?_ofValue hv, items?_ofItems hvs, bind, Except.bind]
    rfl

theorem value?_ofMembers {depth : Nat} {ms : List (Literal × Document)}
    {vs : List (String × Value)} (h : members? depth ms = .ok vs) :
    ∀ m ∈ vs, value? depth (ofValue m.2) = .ok m.2 := by
  match ms with
  | [] =>
    obtain rfl := Except.ok.inj h
    simp
  | (k, d) :: ms =>
    simp only [members?, bind_eq_ok_iff] at h
    obtain ⟨name, -, v, hv, vs', hvs, hsame⟩ := h
    obtain rfl := Except.ok.inj hsame
    exact List.forall_mem_cons.mpr ⟨value?_ofValue hv, value?_ofMembers hvs⟩

end

end Document
end OutcomeRelay.Json
