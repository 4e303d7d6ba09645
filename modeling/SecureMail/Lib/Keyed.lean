import Mathlib.Data.List.Nodup

/-!
# Keyed emission

A batch is a list of entries, no two with one key, and each entry emits an item or nothing. A reader
of what was emitted has only the items: it can ask which of them carry the key of an entry, and it
wants the answer to be what that entry emitted. `filter_filterMap_of_key` is that answer, for any
question about an item that an item answers as its entry's key would.

The key of an item is not a function here. An item may carry only a part of what tells entries apart,
and the question that is put to it is whatever the reader can evaluate; all that is asked of the
question is that on the items of this batch it comes out as the comparison of keys.
-/

namespace SecureMail
namespace Keyed

variable {ε α : Type*} {κ : Type*} {key : ε → κ}

/-- Entries none of whose items answer to the question leave nothing. -/
theorem filter_filterMap_eq_nil {out : ε → Option α} {p : α → Bool} {l : List ε}
    (h : ∀ e ∈ l, ∀ a, out e = some a → p a = false) : (l.filterMap out).filter p = [] := by
  rw [List.filter_eq_nil_iff]
  intro a ha
  obtain ⟨e, he, hout⟩ := List.mem_filterMap.mp ha
  simp [h e he a hout]

/-- **What carries the key of an entry is what the entry emitted.** So an entry of a log can be
found again from what it has left in another list. -/
theorem filter_filterMap_of_key {out : ε → Option α} {p : α → Bool} {l : List ε} {e : ε}
    (hnodup : (l.map key).Nodup) (he : e ∈ l)
    (hp : ∀ e' ∈ l, ∀ a, out e' = some a → (p a = true ↔ key e' = key e)) :
    (l.filterMap out).filter p = (out e).toList := by
  induction l with
  | nil => exact absurd he (by simp)
  | cons x rest ih =>
    rw [List.map_cons, List.nodup_cons] at hnodup
    have hrest : ∀ e' ∈ rest, ∀ a, out e' = some a → (p a = true ↔ key e' = key e) :=
      fun e' he' => hp e' (List.mem_cons_of_mem x he')
    have hx : (x :: rest).filterMap out = (out x).toList ++ rest.filterMap out := by
      cases hout : out x <;> simp [hout]
    rw [hx, List.filter_append]
    rcases List.mem_cons.mp he with rfl | he
    · -- The entry is the first, and no later one has its key.
      have hlater : (rest.filterMap out).filter p = [] := by
        apply filter_filterMap_eq_nil
        intro e' he' a ha
        rw [Bool.eq_false_iff, ne_eq, hrest e' he' a ha]
        intro hkey
        exact hnodup.1 (hkey ▸ List.mem_map_of_mem he')
      rw [hlater, List.append_nil]
      cases hout : out e with
      | none => rfl
      | some a => simp [(hp e (List.mem_cons_self ..) a hout).mpr rfl]
    · -- The entry is a later one, and the first has another key.
      have hfirst : (out x).toList.filter p = [] := by
        cases hout : out x with
        | none => rfl
        | some a =>
          have hne : key x ≠ key e := by
            intro hkey
            exact hnodup.1 (hkey ▸ List.mem_map_of_mem he)
          have hpa : ¬ p a = true := fun h => hne ((hp x (List.mem_cons_self ..) a hout).mp h)
          simp [hpa]
      rw [hfirst, List.nil_append]
      exact ih hnodup.2 he hrest

/-- Items that tell the key of their entry are no two the same. -/
theorem nodup_filterMap_of_key {out : ε → Option α} {l : List ε} (hnodup : (l.map key).Nodup)
    (hout : ∀ e ∈ l, ∀ e' ∈ l, ∀ a, out e = some a → out e' = some a → key e = key e') :
    (l.filterMap out).Nodup := by
  rw [List.Nodup, List.pairwise_filterMap]
  refine (List.pairwise_map.mp hnodup).imp_of_mem ?_
  intro e e' he he' hne a ha b hb hab
  subst hab
  exact hne (hout e he e' he' a ha hb)

/-- The first with a key is the only one with it, so a search finds the same in any order. -/
theorem find?_perm [DecidableEq κ] {l l' : List ε} (h : l.Perm l') (hnodup : (l.map key).Nodup)
    (k : κ) : (l.find? fun e => key e = k) = l'.find? fun e => key e = k := by
  cases hfind : l'.find? fun e => key e = k with
  | none =>
    rw [List.find?_eq_none] at hfind ⊢
    exact fun e he => hfind e (h.mem_iff.mp he)
  | some e =>
    have hkey : key e = k := by simpa using List.find?_some hfind
    have hmem : e ∈ l := h.mem_iff.mpr (List.mem_of_find?_eq_some hfind)
    have hsome : (l.find? fun e => key e = k).isSome := by
      rw [List.find?_isSome]
      exact ⟨e, hmem, by simpa using hkey⟩
    obtain ⟨e', hfind'⟩ := Option.isSome_iff_exists.mp hsome
    have hkey' : key e' = k := by simpa using List.find?_some hfind'
    rw [hfind', List.inj_on_of_nodup_map hnodup (List.mem_of_find?_eq_some hfind') hmem
      (hkey'.trans hkey.symm)]

/-- **A list cut by a key is the whole list**, for any keys that cover it and are not repeated. -/
theorem flatMap_filter_perm [DecidableEq κ] {key : α → κ} {keys : List κ} (hnodup : keys.Nodup)
    {l : List α} (hcover : ∀ a ∈ l, key a ∈ keys) :
    (keys.flatMap fun k => l.filter (key · = k)).Perm l := by
  induction keys generalizing l with
  | nil =>
    cases l with
    | nil => exact List.Perm.nil
    | cons a rest => exact absurd (hcover a List.mem_cons_self) List.not_mem_nil
  | cons k rest ih =>
    rw [List.nodup_cons] at hnodup
    -- What is left when the first key is cut out, cut by the other keys.
    have hothers : (rest.flatMap fun k' => l.filter (key · = k')) =
        rest.flatMap fun k' => (l.filter fun a => !decide (key a = k)).filter (key · = k') := by
      refine List.flatMap_congr fun k' hk' => ?_
      rw [List.filter_filter]
      refine List.filter_congr fun a _ => ?_
      by_cases hkey : key a = k'
      · have hne : k' ≠ k := fun heq => hnodup.1 (heq ▸ hk')
        simp [hkey, hne]
      · simp [hkey]
    have hrest := ih hnodup.2 (l := l.filter fun a => !decide (key a = k)) (by
      intro a ha
      obtain ⟨hmem, hne⟩ := List.mem_filter.mp ha
      rcases List.mem_cons.mp (hcover a hmem) with heq | hin
      · simp [heq] at hne
      · exact hin)
    rw [List.flatMap_cons, hothers]
    exact (List.Perm.append_left _ hrest).trans (List.filter_append_perm _ l)

end Keyed
end SecureMail
