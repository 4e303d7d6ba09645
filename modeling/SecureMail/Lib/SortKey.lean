import Mathlib.Data.List.Sort

/-!
# Sorting by a comparison

`sorted(l, key=..)` with a tuple for a key is an insertion sort by a lexicographic comparison. The
comparison is transitive whatever the keys are, so the result is in order; and where the key tells
the elements of the list apart, the result depends on the elements alone and not on their order.

Comparisons give an `Ordering`, and the sort is by the relation that is read off it, so that a tuple
of keys is a chain of comparisons joined by `then` and its transitivity is found by instance search.
A comparison that ties different elements leaves them as they came: the sort is stable, and a filter
goes through it (`filter_insertionSort`).
-/

namespace SecureMail
namespace SortKey

variable {α : Type*} {cmp : α → α → Ordering}

/-- The relation a comparison sorts by. -/
abbrev Before (cmp : α → α → Ordering) (a b : α) : Prop := (cmp a b).isLE = true

theorem total [Std.TransCmp cmp] (a b : α) : Before cmp a b ∨ Before cmp b a := by
  by_cases h : (cmp a b).isLE = true
  · exact Or.inl h
  · right
    have hswap : cmp b a = (cmp a b).swap := Std.OrientedCmp.eq_swap
    show (cmp b a).isLE = true
    rw [hswap]
    cases hab : cmp a b with
    | lt => exact absurd (by rw [hab]; rfl) h
    | eq => rfl
    | gt => rfl

instance [Std.TransCmp cmp] : Std.Total (Before cmp) := ⟨total⟩

instance [Std.TransCmp cmp] : IsTrans α (Before cmp) := ⟨fun _ _ _ => Std.TransCmp.isLE_trans⟩

/-- The result of the sort is in order. -/
theorem pairwise_insertionSort [Std.TransCmp cmp] (l : List α) :
    (l.insertionSort (Before cmp)).Pairwise (Before cmp) :=
  List.pairwise_insertionSort _ l

/-- The first of a sorted list is before every other. -/
theorem le_of_head (cmp : α → α → Ordering) [Std.TransCmp cmp] {l rest : List α} {first : α}
    (h : l.insertionSort (Before cmp) = first :: rest) : ∀ a ∈ l, Before cmp first a := by
  intro a ha
  have hsorted : (l.insertionSort (Before cmp)).Pairwise (Before cmp) := pairwise_insertionSort l
  rw [h, List.pairwise_cons] at hsorted
  have hmem : a ∈ first :: rest := by
    rw [← h]
    exact (List.mem_insertionSort _).mpr ha
  rcases List.mem_cons.mp hmem with rfl | hrest
  · exact (total a a).elim id id
  · exact hsorted.1 a hrest

/-- **A sort whose key is total on the list forgets the order of the list.** It is enough that the
key is total on the elements that occur. -/
theorem insertionSort_eq_of_perm [Std.TransCmp cmp] {l l' : List α} (h : l.Perm l')
    (hkey : ∀ a ∈ l, ∀ b ∈ l, cmp a b = .eq → a = b) :
    l.insertionSort (Before cmp) = l'.insertionSort (Before cmp) := by
  have hperm : (l.insertionSort (Before cmp)).Perm (l'.insertionSort (Before cmp)) :=
    (List.perm_insertionSort _ l).trans (h.trans (List.perm_insertionSort _ l').symm)
  refine hperm.eq_of_pairwise ?_ (pairwise_insertionSort l) (pairwise_insertionSort l')
  intro a b ha hb hab hba
  have ha' : a ∈ l := (List.mem_insertionSort _).mp ha
  have hb' : b ∈ l := h.mem_iff.mpr ((List.mem_insertionSort _).mp hb)
  apply hkey a ha' b hb'
  have hswap : (cmp a b).swap.isLE = true := by
    have heq : cmp b a = (cmp a b).swap := Std.OrientedCmp.eq_swap
    rw [← heq]
    exact hba
  cases hcmp : cmp a b with
  | lt =>
    rw [hcmp] at hswap
    exact absurd hswap (by decide)
  | eq => rfl
  | gt =>
    have hle : (cmp a b).isLE = true := hab
    rw [hcmp] at hle
    exact absurd hle (by decide)

/-- The same for a sort by one key with an order of its own. -/
theorem insertionSort_key_eq_of_perm {κ : Type*} [LE κ] [DecidableLE κ]
    [Std.IsLinearOrder κ] (key : α → κ) {l l' : List α} (h : l.Perm l')
    (hkey : ∀ a ∈ l, ∀ b ∈ l, key a = key b → a = b) :
    l.insertionSort (fun a b => key a ≤ key b) = l'.insertionSort (fun a b => key a ≤ key b) := by
  have htotal : Std.Total fun a b : α => key a ≤ key b := ⟨fun a b => Std.le_total⟩
  have htrans : IsTrans α fun a b => key a ≤ key b := ⟨fun a b c => Std.le_trans⟩
  have hperm := (List.perm_insertionSort (fun a b => key a ≤ key b) l).trans
    (h.trans (List.perm_insertionSort (fun a b => key a ≤ key b) l').symm)
  refine hperm.eq_of_pairwise ?_ (List.pairwise_insertionSort _ l)
    (List.pairwise_insertionSort _ l')
  intro a b ha hb hab hba
  have ha' : a ∈ l := (List.mem_insertionSort _).mp ha
  have hb' : b ∈ l := h.mem_iff.mpr ((List.mem_insertionSort _).mp hb)
  exact hkey a ha' b hb' (Std.le_antisymm hab hba)

/-- A list in order stays as it is. -/
theorem insertionSort_of_pairwise {l : List α} (h : l.Pairwise (Before cmp)) :
    l.insertionSort (Before cmp) = l := List.Pairwise.insertionSort_eq h

theorem filter_orderedInsert [Std.TransCmp cmp] (p : α → Bool) (a : α) {l : List α}
    (h : l.Pairwise (Before cmp)) :
    (l.orderedInsert (Before cmp) a).filter p =
      if p a then (l.filter p).orderedInsert (Before cmp) a else l.filter p := by
  induction l with
  | nil => cases hp : p a <;> simp [hp]
  | cons b rest ih =>
    rw [List.pairwise_cons] at h
    obtain ⟨hb, hrest⟩ := h
    by_cases hab : Before cmp a b
    · rw [List.orderedInsert_cons_of_le _ _ hab, List.filter_cons]
      cases hp : p a with
      | false => simp
      | true =>
        -- What is left of the rest is after `a` as well.
        have hhead : ∀ c ∈ (b :: rest).filter p, Before cmp a c := by
          intro c hc
          rcases List.mem_cons.mp (List.mem_of_mem_filter hc) with rfl | hc
          · exact hab
          · exact Std.TransCmp.isLE_trans hab (hb c hc)
        cases hfilter : (b :: rest).filter p with
        | nil => simp
        | cons c kept =>
          have hac : Before cmp a c := hhead c (by rw [hfilter]; exact List.mem_cons_self)
          simp [List.orderedInsert_cons_of_le _ _ hac]
    · rw [List.orderedInsert_of_not_le _ _ hab, List.filter_cons, ih hrest, List.filter_cons]
      cases hp : p a with
      | false => simp
      | true =>
        cases hpb : p b with
        | false => simp
        | true => simp [List.orderedInsert_of_not_le _ _ hab]

/-- **A sort by a key and a filter commute**: the sort is stable. It lets a sorted list of many
parties be read as the sorted lists of each. -/
theorem filter_insertionSort [Std.TransCmp cmp] (p : α → Bool) (l : List α) :
    (l.insertionSort (Before cmp)).filter p = (l.filter p).insertionSort (Before cmp) := by
  induction l with
  | nil => rfl
  | cons a rest ih =>
    rw [List.insertionSort_cons, filter_orderedInsert p a (pairwise_insertionSort rest), ih,
      List.filter_cons]
    cases p a <;> rfl

/-! ## Two relations -/

section

variable {r s : α → α → Prop} [DecidableRel r] [DecidableRel s]

theorem orderedInsert_congr {a : α} {l : List α} (h : ∀ b ∈ l, r a b ↔ s a b) :
    l.orderedInsert r a = l.orderedInsert s a := by
  induction l with
  | nil => rfl
  | cons b rest ih =>
    rw [List.forall_mem_cons] at h
    by_cases hab : r a b
    · rw [List.orderedInsert_cons_of_le _ _ hab, List.orderedInsert_cons_of_le _ _ (h.1.mp hab)]
    · rw [List.orderedInsert_of_not_le _ _ hab,
        List.orderedInsert_of_not_le _ _ fun hs => hab (h.1.mpr hs), ih h.2]

/-- An insertion sort compares an element with later ones only. -/
theorem insertionSort_congr {l : List α} (h : l.Pairwise fun a b => r a b ↔ s a b) :
    l.insertionSort r = l.insertionSort s := by
  induction l with
  | nil => rfl
  | cons a rest ih =>
    rw [List.pairwise_cons] at h
    rw [List.insertionSort_cons, List.insertionSort_cons, ← ih h.2]
    exact orderedInsert_congr fun b hb => h.1 b ((List.mem_insertionSort _).mp hb)

end

end SortKey
end SecureMail
