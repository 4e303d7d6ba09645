import Mathlib.Algebra.BigOperators.Group.List.Basic
import SecureMail.Py.Dict

/-!
# Counting into a `dict`

A loop that updates the entry of each element's key leaves, under each key, what is made of the
elements with that key, and nothing under a key that no element has (`tabulates_foldl`). Where the
value of an entry is a sum over its elements, the entries add up to the sum over the whole list,
however the keys divide it (`Tabulates.sum_values`). This is what makes the margins of a table of
counts agree.

`Tabulates` names the relation between a list and such a table, and says the two things together:
what an entry holds, and that there are no others. Half of it is easy to miss. A table that is empty
agrees with every list as far as its entries go.
-/

namespace SecureMail
namespace Py

/-! ## Sums by key -/

section

variable {α κ M : Type*} [DecidableEq κ] [AddCommMonoid M] {key : α → κ}

theorem sum_map_ite_of_not_mem (m : M) {keys : List κ} {k : κ} (h : k ∉ keys) :
    (keys.map fun k' => if k = k' then m else 0).sum = 0 := by
  induction keys with
  | nil => rfl
  | cons k' rest ih =>
    rw [List.mem_cons, not_or] at h
    rw [List.map_cons, List.sum_cons, if_neg h.1, ih h.2, add_zero]

theorem sum_map_ite_of_nodup (m : M) {keys : List κ} {k : κ} (hnodup : keys.Nodup)
    (h : k ∈ keys) : (keys.map fun k' => if k = k' then m else 0).sum = m := by
  induction keys with
  | nil => exact absurd h (by simp)
  | cons k' rest ih =>
    obtain ⟨hnot, hrest⟩ := List.nodup_cons.mp hnodup
    rw [List.map_cons, List.sum_cons]
    rcases List.mem_cons.mp h with rfl | hmem
    · rw [if_pos rfl, sum_map_ite_of_not_mem m hnot, add_zero]
    · have hne : k ≠ k' := fun hk => hnot (hk ▸ hmem)
      rw [if_neg hne, ih hrest hmem, zero_add]

/-- **A sum is the sum over the keys of the sums over the elements with that key.** -/
theorem sum_map_filter_key (f : α → M) {keys : List κ} (hnodup : keys.Nodup) :
    ∀ {l : List α}, (∀ a ∈ l, key a ∈ keys) →
      (keys.map fun k => ((l.filter (key · = k)).map f).sum).sum = (l.map f).sum
  | [], _ => by simp
  | a :: rest, hkeys => by
    have hrest := sum_map_filter_key f hnodup fun b hb => hkeys b (List.mem_cons_of_mem a hb)
    have hsplit : ∀ k, (((a :: rest).filter (key · = k)).map f).sum =
        (if key a = k then f a else 0) + ((rest.filter (key · = k)).map f).sum := by
      intro k
      by_cases hk : key a = k <;> simp [hk]
    have hone := sum_map_ite_of_nodup (f a) hnodup (hkeys a List.mem_cons_self)
    simp only [hsplit, List.sum_map_add, hone, hrest, List.map_cons, List.sum_cons]

end

namespace Dict

variable {κ ν α : Type} [DecidableEq κ]

/-- Each key of the list has what `value` makes of its elements. -/
def Tabulates (d : Dict κ ν) (key : α → κ) (value : List α → ν) (l : List α) : Prop :=
  ∀ k, d.get? k =
    if l.filter (key · = k) = [] then none else some (value (l.filter (key · = k)))

theorem tabulates_foldl {key : α → κ} {value : List α → ν} {f : α → ν → ν}
    (hvalue : ∀ l, value l = l.foldl (fun v a => f a v) (value [])) (l : List α) :
    (l.foldl (fun d a => d.update (key a) (value []) (f a)) ∅ : Dict κ ν).Tabulates key value l := by
  intro k
  rw [get?_foldl_update, get?_empty, Option.getD_none, ← hvalue]

namespace Tabulates

variable {d : Dict κ ν} {key : α → κ} {value : List α → ν} {l : List α}

theorem mem_keys_iff (h : d.Tabulates key value l) {k : κ} :
    k ∈ d.keys ↔ ∃ a ∈ l, key a = k := by
  rw [Dict.mem_keys_iff, h k]
  by_cases hnil : l.filter (key · = k) = []
  · rw [if_pos hnil]
    rw [List.filter_eq_nil_iff] at hnil
    simpa using hnil
  · rw [if_neg hnil]
    obtain ⟨a, ha⟩ := List.exists_mem_of_ne_nil _ hnil
    rw [List.mem_filter, decide_eq_true_eq] at ha
    exact ⟨fun _ => ⟨a, ha⟩, fun _ => rfl⟩

theorem mem_entries_iff (h : d.Tabulates key value l) {k : κ} {v : ν} :
    (k, v) ∈ d.entries ↔ l.filter (key · = k) ≠ [] ∧ v = value (l.filter (key · = k)) := by
  rw [Dict.mem_entries_iff, h k]
  by_cases hnil : l.filter (key · = k) = []
  · simp [hnil]
  · rw [if_neg hnil, Option.some.injEq, eq_comm]
    exact ⟨fun hv => ⟨hnil, hv⟩, fun hv => hv.2⟩

/-- The items, by their keys. -/
theorem entries_eq (h : d.Tabulates key value l) :
    d.entries = d.keys.map fun k => (k, value (l.filter (key · = k))) := by
  have hid : ∀ e ∈ d.entries, e = (e.1, value (l.filter (key · = e.1))) := by
    rintro ⟨k, v⟩ he
    rw [(h.mem_entries_iff.mp he).2]
  rw [keys, List.map_map]
  conv_lhs => rw [← List.map_id d.entries]
  exact List.map_congr_left hid

/-- **Entries that are sums add up to the sum over the list.** No element is counted under two keys,
so nothing is counted twice. -/
theorem sum_values [AddCommMonoid ν] {f : α → ν}
    (h : d.Tabulates key (fun group => (group.map f).sum) l) :
    (d.entries.map (·.2)).sum = (l.map f).sum := by
  rw [h.entries_eq, List.map_map]
  exact sum_map_filter_key f d.nodup_keys fun a ha => h.mem_keys_iff.mpr ⟨a, ha, rfl⟩

end Tabulates

end Dict

end Py
end SecureMail
