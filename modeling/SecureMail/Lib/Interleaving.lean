import Mathlib.Data.List.Perm.Basic

/-!
# Interleavings

A list holds the elements of several parties. An element can be of one party, of more than one or of
none. Two lists are interleavings of the same if they have the same elements and each party has its
own in the same order; how the parties stand to each other is left open.

An element of two parties holds its place among the elements of both, and one of none can go
anywhere. Ownership is therefore a relation, and the lemmas that take a list apart do it by one party
at a time, with a filter, and never by the list.

Sorting by a key that tells the parties apart takes that freedom away: what is sorted is decided by
what each party has (`eq_of_pairwise`). That is how a loop that emits in the order of a key turns two
interleavings into one result.
-/

namespace SecureMail
namespace Interleaving

variable {α κ : Type*}

/-- The same elements, those of each party in the same order. -/
structure Interleaved (owns : κ → α → Bool) (l l' : List α) : Prop where
  perm : l.Perm l'
  own : ∀ k, l.filter (owns k) = l'.filter (owns k)

namespace Interleaved

variable {owns owns' : κ → α → Bool} {l l' : List α}

theorem refl (owns : κ → α → Bool) (l : List α) : Interleaved owns l l := ⟨.refl l, fun _ => rfl⟩

theorem symm (h : Interleaved owns l l') : Interleaved owns l' l :=
  ⟨h.perm.symm, fun k => (h.own k).symm⟩

theorem filter_eq_of_imp {p q : α → Bool} (h : l.filter q = l'.filter q)
    (himp : ∀ a, p a = true → q a = true) : l.filter p = l'.filter p := by
  have hboth : ∀ l : List α, l.filter p = (l.filter q).filter p := by
    intro l
    rw [List.filter_filter]
    refine List.filter_congr fun a _ => ?_
    cases hp : p a with
    | false => rfl
    | true => simp [himp a hp]
  rw [hboth l, hboth l', h]

/-- Parties that own less. -/
theorem of_imp (h : Interleaved owns l l') (himp : ∀ k a, owns' k a = true → owns k a = true) :
    Interleaved owns' l l' :=
  ⟨h.perm, fun k => filter_eq_of_imp (h.own k) (himp k)⟩

end Interleaved

/-- Neighbours without a common party change places. -/
theorem Interleaved.swap {owns : κ → α → Bool} {a b : α}
    (h : ∀ k, ¬(owns k a = true ∧ owns k b = true)) (l r : List α) :
    Interleaved owns (l ++ a :: b :: r) (l ++ b :: a :: r) where
  perm := (List.Perm.swap b a r).append_left l
  own k := by
    rw [List.filter_append, List.filter_append]
    have hk := h k
    simp only [List.filter_cons]
    cases ha : owns k a <;> cases hb : owns k b <;> simp_all

/-- What the elements of a party make, where only they make what is of the party. -/
theorem Interleaved.filter_flatMap {β : Type*} {owns : κ → α → Bool} {l l' : List α}
    (h : Interleaved owns l l') (g : α → List β) (p : β → Bool) (k : κ)
    (hown : ∀ a, owns k a = false → (g a).filter p = []) :
    (l.flatMap g).filter p = (l'.flatMap g).filter p := by
  have hparts : ∀ l : List α,
      (l.flatMap g).filter p = (l.filter (owns k)).flatMap fun a => (g a).filter p := by
    intro l
    induction l with
    | nil => rfl
    | cons a rest ih =>
      rw [List.flatMap_cons, List.filter_append, ih, List.filter_cons]
      cases hk : owns k a with
      | false => rw [hown a hk]; simp
      | true => simp
  rw [hparts l, hparts l', h.own k]

/-! ## Sorted lists -/

theorem of_head {f : α → κ} [DecidableEq κ] {a : α} {l l' : List α}
    (h : ∀ k, (a :: l).filter (f · = k) = l'.filter (f · = k)) : a ∈ l' := by
  have hmem : a ∈ (a :: l).filter (f · = f a) :=
    List.mem_filter.mpr ⟨List.mem_cons_self, by simp⟩
  rw [h] at hmem
  exact List.mem_of_mem_filter hmem

/-- **Sorted by a relation that tells the keys apart, two lists with the same elements for each key
are the same list.** -/
theorem eq_of_pairwise {r : α → α → Prop} {f : α → κ} [DecidableEq κ]
    (hkey : ∀ a b, r a b → r b a → f a = f b) {l l' : List α} (hl : l.Pairwise r)
    (hl' : l'.Pairwise r) (h : ∀ k, l.filter (f · = k) = l'.filter (f · = k)) : l = l' := by
  induction l generalizing l' with
  | nil =>
    cases l' with
    | nil => rfl
    | cons b rest => exact absurd (of_head fun k => (h k).symm) List.not_mem_nil
  | cons a rest ih =>
    cases l' with
    | nil => exact absurd (of_head h) List.not_mem_nil
    | cons b rest' =>
      rw [List.pairwise_cons] at hl hl'
      -- Each head stands in the other list, so each is before the other.
      have hheads : f a = f b := by
        rcases List.mem_cons.mp (of_head h) with hab | hab
        · rw [hab]
        · rcases List.mem_cons.mp (of_head fun k => (h k).symm) with hba | hba
          · rw [hba]
          · exact hkey a b (hl.1 b hba) (hl'.1 a hab)
      have hfirst := h (f a)
      rw [List.filter_cons_of_pos (by simp), List.filter_cons_of_pos (by simp [hheads])] at hfirst
      obtain ⟨rfl, -⟩ := List.cons.inj hfirst
      refine congrArg _ (ih hl.2 hl'.2 fun k => ?_)
      have hk := h k
      rw [List.filter_cons, List.filter_cons] at hk
      split at hk
      · exact (List.cons.inj hk).2
      · exact hk

end Interleaving
end SecureMail
