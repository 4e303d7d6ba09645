import SecureMail.Py.Str

/-!
# Fields between delimiters

A text joined from fields is read back from the side on which the fields do not hold the delimiter:
from the left where the first field is free of it, whatever follows, and from the right where the
last field is.

Identifiers are made by joining, and hashed. Whether two of them can be the same text is a question
about the fields, and the answer is not symmetric: one field in the middle that may hold the
delimiter can be told apart as long as those on both its sides cannot.
-/

namespace SecureMail
namespace Py

section

variable {α : Type*} {c : α}

theorem append_cons_inj_left {a a' r r' : List α} (ha : c ∉ a) (ha' : c ∉ a')
    (h : a ++ c :: r = a' ++ c :: r') : a = a' ∧ r = r' := by
  induction a generalizing a' with
  | nil =>
    cases a' with
    | nil => exact ⟨rfl, (List.cons.inj h).2⟩
    | cons x rest => exact absurd (List.mem_cons.mpr (Or.inl (List.cons.inj h).1)) ha'
  | cons x rest ih =>
    cases a' with
    | nil => exact absurd (List.mem_cons.mpr (Or.inl (List.cons.inj h).1.symm)) ha
    | cons x' rest' =>
      obtain ⟨rfl, htail⟩ := List.cons.inj h
      obtain ⟨rfl, hrest⟩ := ih (fun hc => ha (List.mem_cons_of_mem x hc))
        (fun hc => ha' (List.mem_cons_of_mem x hc)) htail
      exact ⟨rfl, hrest⟩

theorem append_cons_inj_right {a a' r r' : List α} (hr : c ∉ r) (hr' : c ∉ r')
    (h : a ++ c :: r = a' ++ c :: r') : a = a' ∧ r = r' := by
  have hreverse : r.reverse ++ c :: a.reverse = r'.reverse ++ c :: a'.reverse := by
    simpa using congrArg List.reverse h
  obtain ⟨hfirst, hsecond⟩ := append_cons_inj_left (by simpa using hr) (by simpa using hr')
    hreverse
  exact ⟨List.reverse_injective hsecond, List.reverse_injective hfirst⟩

end

variable {c : Char} {sep : String}

theorem toList_append_sep (hsep : sep.toList = [c]) (a r : String) :
    (a ++ sep ++ r).toList = a.toList ++ c :: r.toList := by
  rw [String.toList_append, String.toList_append, hsep, List.append_assoc, List.singleton_append]

/-- The first field is free of the delimiter. -/
theorem append_sep_inj_left (hsep : sep.toList = [c]) {a a' r r' : String} (ha : c ∉ a.toList)
    (ha' : c ∉ a'.toList) (h : a ++ sep ++ r = a' ++ sep ++ r') : a = a' ∧ r = r' := by
  have hlists := congrArg String.toList h
  rw [toList_append_sep hsep, toList_append_sep hsep] at hlists
  obtain ⟨hfirst, hrest⟩ := append_cons_inj_left ha ha' hlists
  exact ⟨String.toList_injective hfirst, String.toList_injective hrest⟩

/-- The last field is free of the delimiter. -/
theorem append_sep_inj_right (hsep : sep.toList = [c]) {a a' r r' : String} (hr : c ∉ r.toList)
    (hr' : c ∉ r'.toList) (h : a ++ sep ++ r = a' ++ sep ++ r') : a = a' ∧ r = r' := by
  have hlists := congrArg String.toList h
  rw [toList_append_sep hsep, toList_append_sep hsep] at hlists
  obtain ⟨hrest, hlast⟩ := append_cons_inj_right hr hr' hlists
  exact ⟨String.toList_injective hrest, String.toList_injective hlast⟩

theorem join_cons_cons (sep a b : String) (rest : List String) :
    join sep (a :: b :: rest) = a ++ sep ++ join sep (b :: rest) := by
  apply String.toList_injective
  rw [join, join, String.toList_ofList, List.map_cons, List.map_cons,
    List.intercalate_cons_of_ne_nil (by simp), String.toList_append, String.toList_append,
    String.toList_ofList]

@[simp] theorem join_singleton (sep a : String) : join sep [a] = a := by
  apply String.toList_injective
  rw [join, String.toList_ofList, List.map_singleton, List.intercalate_singleton]

/-! ## Splitting -/

theorem splitOnChar_ne_nil (c : Char) (s : String) : splitOnChar c s ≠ [] := by
  rw [splitOnChar, ne_eq, List.map_eq_nil_iff]
  exact List.splitOn_ne_nil c s.toList

theorem splitOnChar_append_sep (hsep : sep.toList = [c]) {a : String} (ha : c ∉ a.toList)
    (r : String) : splitOnChar c (a ++ sep ++ r) = a :: splitOnChar c r := by
  rw [splitOnChar, toList_append_sep hsep, List.splitOn_append_cons_self_of_not_mem ha,
    List.map_cons, String.ofList_toList]
  rfl

theorem join_splitOnChar (hsep : sep.toList = [c]) (s : String) :
    join sep (splitOnChar c s) = s := by
  have hlists : (splitOnChar c s).map String.toList = s.toList.splitOn c := by
    simp [splitOnChar, List.map_map, Function.comp_def]
  rw [join, hlists, hsep, List.intercalate_splitOn, String.ofList_toList]

theorem mem_intercalate {α : Type*} {c x : α} {part : List α} {parts : List (List α)}
    (hpart : part ∈ parts) (hx : x ∈ part) : x ∈ [c].intercalate parts := by
  induction parts with
  | nil => exact absurd hpart (by simp)
  | cons first rest ih =>
    by_cases hnil : rest = []
    · subst hnil
      rw [List.intercalate_singleton, ← List.mem_singleton.mp hpart]
      exact hx
    · rw [List.intercalate_cons_of_ne_nil hnil]
      rcases List.mem_cons.mp hpart with rfl | hrest
      · exact List.mem_append_left _ (List.mem_append_left _ hx)
      · exact List.mem_append_right _ (ih hrest)

/-- The parts of a split have no characters but those of the text. -/
theorem mem_of_mem_splitOnChar {s part : String} {x : Char} (hpart : part ∈ splitOnChar c s)
    (hx : x ∈ part.toList) : x ∈ s.toList := by
  obtain ⟨chars, hchars, rfl⟩ := List.mem_map.mp hpart
  rw [String.toList_ofList] at hx
  have hmem : x ∈ [c].intercalate (s.toList.splitOn c) := mem_intercalate hchars hx
  rwa [List.intercalate_splitOn] at hmem

/-- **The first part of a split is what stands before the first separator.** The other parts are a
split again, of what stands behind it. -/
theorem splitOnChar_eq_cons_iff (hsep : sep.toList = [c]) {s a r : String} :
    splitOnChar c s = a :: splitOnChar c r ↔ s = a ++ sep ++ r ∧ c ∉ a.toList := by
  constructor
  · intro h
    refine ⟨?_, sep_notMem_splitOnChar (h ▸ List.mem_cons_self)⟩
    have hjoin := join_splitOnChar hsep s
    cases hrest : splitOnChar c r with
    | nil => exact absurd hrest (splitOnChar_ne_nil c r)
    | cons first others =>
      rw [h, hrest, join_cons_cons, ← hrest, join_splitOnChar hsep r] at hjoin
      exact hjoin.symm
  · rintro ⟨rfl, ha⟩
    exact splitOnChar_append_sep hsep ha r

end Py
end SecureMail
