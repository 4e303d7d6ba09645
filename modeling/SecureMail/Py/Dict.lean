import Mathlib.Data.List.Induction
import Mathlib.Data.List.Nodup
import Mathlib.Data.List.Perm.Basic
import Mathlib.Data.List.Perm.Subperm

/-!
# `dict`

A dictionary is its items in insertion order, no key twice; assigning to a key that is present
keeps its place. The normalizers rely on both halves: every table is keyed by connection, and the
order in which connections were first seen is the order in which they are emitted.

That no key occurs twice is a field of the type. A lookup is a search through the items, and the
first item with a key is the only one, so that a statement about a table can speak of its items and
of its lookups as it likes (`mem_entries_iff`). What a loop of assignments leaves under a key is the
last of them, and what a loop that groups or updates leaves is in the rules at the end.
-/

namespace SecureMail
namespace Py

structure Dict (κ ν : Type) where
  entries : List (κ × ν)
  nodup : (entries.map (·.1)).Nodup

namespace Dict

variable {κ ν : Type}

instance : EmptyCollection (Dict κ ν) := ⟨⟨[], List.nodup_nil⟩⟩

def keys (d : Dict κ ν) : List κ := d.entries.map (·.1)

theorem nodup_keys (d : Dict κ ν) : d.keys.Nodup := d.nodup

@[simp] theorem keys_empty : (∅ : Dict κ ν).keys = [] := rfl

variable [DecidableEq κ]

/-- `d.get(k)`. -/
def get? (d : Dict κ ν) (k : κ) : Option ν := d.entries.lookup k

/-- The items after `d[k] = v`. -/
def setEntries (k : κ) (v : ν) : List (κ × ν) → List (κ × ν)
  | [] => [(k, v)]
  | e :: rest => if e.1 = k then (k, v) :: rest else e :: setEntries k v rest

theorem mem_keys_setEntries {k x : κ} {v : ν} :
    ∀ {l : List (κ × ν)}, x ∈ (setEntries k v l).map (·.1) ↔ x = k ∨ x ∈ l.map (·.1)
  | [] => by simp [setEntries]
  | e :: rest => by
    unfold setEntries
    by_cases he : e.1 = k
    · rw [if_pos he]
      simp [he]
    · rw [if_neg he, List.map_cons, List.mem_cons, mem_keys_setEntries, List.map_cons,
        List.mem_cons]
      tauto

theorem nodup_setEntries {k : κ} {v : ν} :
    ∀ {l : List (κ × ν)}, (l.map (·.1)).Nodup → ((setEntries k v l).map (·.1)).Nodup
  | [], _ => by simp [setEntries]
  | e :: rest, h => by
    rw [List.map_cons, List.nodup_cons] at h
    unfold setEntries
    by_cases he : e.1 = k
    · rw [if_pos he, List.map_cons, List.nodup_cons]
      exact ⟨he ▸ h.1, h.2⟩
    · rw [if_neg he, List.map_cons, List.nodup_cons, mem_keys_setEntries]
      exact ⟨fun hm => hm.elim he h.1, nodup_setEntries h.2⟩

/-- `d[k] = v`. -/
def set (d : Dict κ ν) (k : κ) (v : ν) : Dict κ ν :=
  ⟨setEntries k v d.entries, nodup_setEntries d.nodup⟩

/-- `d[k] = f(d[k])` on a `defaultdict`. -/
def update (d : Dict κ ν) (k : κ) (default : ν) (f : ν → ν) : Dict κ ν :=
  d.set k (f ((d.get? k).getD default))

/-- `d.setdefault(k, v)`. -/
def setDefault (d : Dict κ ν) (k : κ) (v : ν) : Dict κ ν :=
  match d.get? k with
  | some _ => d
  | none => d.set k v

/-- `for x in l: d.setdefault(key(x), []).append(x)`. -/
def groupBy {α : Type} (key : α → κ) (l : List α) : Dict κ (List α) :=
  l.foldl (fun d a => d.update (key a) [] (· ++ [a])) ∅

/-- `dict.fromkeys(l)`, read back as a list: the elements in the order of first occurrence. -/
def fromKeys (l : List κ) : List κ := (l.foldl (fun d k => d.set k ()) (∅ : Dict κ Unit)).keys

/-- `{key(x): value(x) for x in l}`: of two elements with one key the later one stays. -/
def ofList {α : Type} (key : α → κ) (value : α → ν) (l : List α) : Dict κ ν :=
  l.foldl (fun d a => d.set (key a) (value a)) ∅

/-! ## Reading after writing -/

@[simp] theorem get?_empty (k : κ) : (∅ : Dict κ ν).get? k = none := rfl

theorem lookup_setEntries {k x : κ} {v : ν} :
    ∀ {l : List (κ × ν)}, (setEntries k v l).lookup x = if x = k then some v else l.lookup x
  | [] => by
    by_cases hx : x = k
    · simp [setEntries, hx]
    · simp [setEntries, List.lookup_cons, hx, beq_eq_false_iff_ne.mpr hx]
  | e :: rest => by
    unfold setEntries
    by_cases he : e.1 = k
    · rw [if_pos he, List.lookup_cons, List.lookup_cons, he]
      by_cases hx : x = k
      · simp [hx]
      · simp [hx, beq_eq_false_iff_ne.mpr hx]
    · rw [if_neg he, List.lookup_cons, List.lookup_cons, lookup_setEntries]
      by_cases hx : x = k
      · have hne : (k == e.1) = false := beq_eq_false_iff_ne.mpr fun hq => he hq.symm
        simp [hx, hne]
      · simp [hx]

theorem setEntries_of_not_mem {k : κ} {v : ν} :
    ∀ {l : List (κ × ν)}, k ∉ l.map (·.1) → setEntries k v l = l ++ [(k, v)]
  | [], _ => rfl
  | e :: rest, h => by
    rw [List.map_cons, List.mem_cons, not_or] at h
    rw [setEntries, if_neg (Ne.symm h.1), setEntries_of_not_mem h.2, List.cons_append]

/-- A new key comes last. -/
theorem entries_set_of_not_mem {d : Dict κ ν} {k : κ} (v : ν) (h : k ∉ d.keys) :
    (d.set k v).entries = d.entries ++ [(k, v)] := setEntries_of_not_mem h

theorem get?_set (d : Dict κ ν) (k x : κ) (v : ν) :
    (d.set k v).get? x = if x = k then some v else d.get? x := lookup_setEntries

@[simp] theorem get?_set_self (d : Dict κ ν) (k : κ) (v : ν) : (d.set k v).get? k = some v := by
  simp [get?_set]

@[simp] theorem mem_keys_set {d : Dict κ ν} {k x : κ} {v : ν} :
    x ∈ (d.set k v).keys ↔ x = k ∨ x ∈ d.keys := mem_keys_setEntries

theorem mem_keys_iff {d : Dict κ ν} {k : κ} : k ∈ d.keys ↔ (d.get? k).isSome := by
  unfold keys get?
  rw [← not_iff_not, Bool.not_eq_true, Option.isSome_eq_false_iff, Option.isNone_iff_eq_none,
    List.lookup_eq_none_iff]
  constructor
  · intro h e he
    simpa using fun hq => h (List.mem_map.mpr ⟨e, he, hq.symm⟩)
  · intro h hm
    obtain ⟨e, he, rfl⟩ := List.mem_map.mp hm
    simpa using h e he

/-- A loop that writes under the key of each element it visits leaves the keys it started with and
the keys visited. -/
theorem mem_keys_foldl_set {α : Type} {key : α → κ} {value : α → ν} {x : κ} :
    ∀ {l : List α} {d : Dict κ ν},
      x ∈ (l.foldl (fun d a => d.set (key a) (value a)) d).keys ↔
        x ∈ d.keys ∨ ∃ a ∈ l, key a = x
  | [], d => by simp
  | a :: rest, d => by
    rw [List.foldl_cons, mem_keys_foldl_set, mem_keys_set]
    constructor
    · rintro ((rfl | h) | ⟨b, hb, hk⟩)
      · exact Or.inr ⟨a, by simp, rfl⟩
      · exact Or.inl h
      · exact Or.inr ⟨b, by simp [hb], hk⟩
    · rintro (h | ⟨b, hb, hk⟩)
      · exact Or.inl (Or.inr h)
      · rcases List.mem_cons.mp hb with rfl | hb
        · exact Or.inl (Or.inl hk.symm)
        · exact Or.inr ⟨b, hb, hk⟩

@[simp] theorem mem_fromKeys {l : List κ} {k : κ} : k ∈ fromKeys l ↔ k ∈ l := by
  have hkeys := @mem_keys_foldl_set κ Unit _ κ id (fun _ => ()) k l ∅
  simpa [fromKeys] using hkeys

theorem mem_keys_ofList {α : Type} {key : α → κ} {value : α → ν} {l : List α} {x : κ} :
    x ∈ (ofList key value l).keys ↔ ∃ a ∈ l, key a = x := by
  rw [ofList, mem_keys_foldl_set]
  simp

/-- What a table built from a list holds, an element of the list put there. -/
theorem get?_foldl_set {α : Type} {key : α → κ} {value : α → ν} {k : κ} {v : ν} :
    ∀ {l : List α} {d : Dict κ ν},
      (l.foldl (fun d a => d.set (key a) (value a)) d).get? k = some v →
        d.get? k = some v ∨ ∃ a ∈ l, key a = k ∧ value a = v
  | [], _, h => Or.inl h
  | a :: rest, d, h => by
    rw [List.foldl_cons] at h
    rcases get?_foldl_set h with hset | ⟨b, hb, hk, hv⟩
    · rw [get?_set] at hset
      split at hset
      · rename_i hka
        exact Or.inr ⟨a, by simp, hka.symm, Option.some.inj hset⟩
      · exact Or.inl hset
    · exact Or.inr ⟨b, by simp [hb], hk, hv⟩

theorem mem_of_get?_ofList {α : Type} {key : α → κ} {value : α → ν} {l : List α} {k : κ} {v : ν}
    (h : (ofList key value l).get? k = some v) : ∃ a ∈ l, key a = k ∧ value a = v := by
  rcases get?_foldl_set h with hempty | hmem
  · exact absurd hempty (by simp)
  · exact hmem

/-- A table of the elements themselves holds, under the key of each, an element with that key. -/
theorem exists_get?_ofList {α : Type} (key : α → κ) {l : List α} {a : α} (ha : a ∈ l) :
    ∃ b ∈ l, key b = key a ∧ (ofList key id l).get? (key a) = some b := by
  have hkey : key a ∈ (ofList key id l).keys := mem_keys_ofList.mpr ⟨a, ha, rfl⟩
  obtain ⟨b, hb⟩ := Option.isSome_iff_exists.mp (mem_keys_iff.mp hkey)
  obtain ⟨b', hmem, hbkey, rfl⟩ := mem_of_get?_ofList hb
  exact ⟨b', hmem, hbkey, hb⟩

/-- Where no two elements have one key, a table of the elements is a way to look one up. -/
theorem get?_ofList_eq_some_iff {α : Type} {key : α → κ} {l : List α} {k : κ} {a : α}
    (hnodup : (l.map key).Nodup) : (ofList key id l).get? k = some a ↔ a ∈ l ∧ key a = k := by
  constructor
  · intro h
    obtain ⟨b, hb, hkey, rfl⟩ := mem_of_get?_ofList h
    exact ⟨hb, hkey⟩
  · rintro ⟨ha, rfl⟩
    obtain ⟨b, hb, hkey, hget⟩ := exists_get?_ofList key ha
    rw [hget, List.inj_on_of_nodup_map hnodup hb ha hkey]

theorem get?_ofList_perm {α : Type} {key : α → κ} {l l' : List α} (h : l.Perm l')
    (hnodup : (l.map key).Nodup) (k : κ) : (ofList key id l).get? k = (ofList key id l').get? k := by
  apply Option.ext
  intro a
  rw [get?_ofList_eq_some_iff hnodup, get?_ofList_eq_some_iff ((h.map key).nodup_iff.mp hnodup),
    h.mem_iff]

/-- Of the elements with one key, a table holds the last. -/
theorem get?_ofList {α : Type} {key : α → κ} {value : α → ν} {l : List α} {k : κ} :
    (ofList key value l).get? k = (l.filter (key · = k)).getLast?.map value := by
  induction l using List.reverseRecOn with
  | nil => rfl
  | append_singleton rest a ih =>
    rw [ofList, List.foldl_append, List.foldl_cons, List.foldl_nil, get?_set, List.filter_append]
    by_cases hk : key a = k
    · simp [hk]
    · have hk' : ¬ k = key a := fun h => hk h.symm
      have hskip : [a].filter (key · = k) = [] := by simp [hk]
      rw [if_neg hk', hskip, List.append_nil, ← ih]
      rfl

/-! ## Items -/

theorem mem_entries_iff {d : Dict κ ν} {k : κ} {v : ν} : (k, v) ∈ d.entries ↔ d.get? k = some v := by
  obtain ⟨entries, hnodup⟩ := d
  show (k, v) ∈ entries ↔ entries.lookup k = some v
  induction entries with
  | nil => simp
  | cons e rest ih =>
    rw [List.map_cons, List.nodup_cons] at hnodup
    rw [List.mem_cons, List.lookup_cons]
    by_cases hk : k = e.1
    · subst hk
      have hnot : (e.1, v) ∉ rest := fun hmem => hnodup.1 (List.mem_map.mpr ⟨_, hmem, rfl⟩)
      simp [hnot, Prod.ext_iff, eq_comm]
    · have hne : (k == e.1) = false := beq_eq_false_iff_ne.mpr hk
      have hnot : (k, v) ≠ e := fun he => hk (he ▸ rfl)
      simp [hne, hnot, ih hnodup.2]

/-- Two tables with the same lookups have the same items. -/
theorem entries_perm {d d' : Dict κ ν} (h : d.get? = d'.get?) : d.entries.Perm d'.entries := by
  rw [List.perm_ext_iff_of_nodup d.nodup.of_map d'.nodup.of_map]
  rintro ⟨k, v⟩
  rw [mem_entries_iff, mem_entries_iff, h]

/-! ## Groups -/

/-- A loop that updates the entry of each element makes each entry of the elements with its key. -/
theorem get?_foldl_update {α : Type} {key : α → κ} {default : ν} {f : α → ν → ν} {k : κ} :
    ∀ {l : List α} {d : Dict κ ν},
      (l.foldl (fun d a => d.update (key a) default (f a)) d).get? k =
        if l.filter (key · = k) = [] then d.get? k
        else some ((l.filter (key · = k)).foldl (fun v a => f a v) ((d.get? k).getD default))
  | [], d => by simp
  | a :: rest, d => by
    rw [List.foldl_cons, get?_foldl_update, List.filter_cons, update, get?_set]
    by_cases hk : key a = k
    · subst hk
      by_cases hrest : rest.filter (key · = key a) = [] <;> simp [hrest]
    · have hk' : ¬ k = key a := fun h => hk h.symm
      simp [hk, hk']

theorem get?_foldl_group {α : Type} {key : α → κ} {k : κ} {l : List α} {d : Dict κ (List α)} :
    (l.foldl (fun d a => d.update (key a) [] (· ++ [a])) d).get? k =
      if l.filter (key · = k) = [] then d.get? k
      else some ((d.get? k).getD [] ++ l.filter (key · = k)) := by
  rw [get?_foldl_update, List.foldl_append_eq_append, ← List.flatMap_def, List.flatMap_singleton']

/-- A group is the elements with its key, in order; there is one where there are such elements. -/
theorem mem_groupBy_iff {α : Type} {key : α → κ} {l : List α} {k : κ} {members : List α} :
    (k, members) ∈ (groupBy key l).entries ↔ members = l.filter (key · = k) ∧ members ≠ [] := by
  rw [mem_entries_iff, groupBy, get?_foldl_group]
  by_cases hnil : l.filter (key · = k) = []
  · simp only [hnil, if_true, get?_empty]
    constructor
    · intro h
      exact absurd h (by simp)
    · rintro ⟨rfl, hne⟩
      exact absurd rfl hne
  · simp only [hnil, if_false, get?_empty, Option.getD_none, List.nil_append, Option.some.injEq]
    constructor
    · rintro rfl
      exact ⟨rfl, hnil⟩
    · rintro ⟨rfl, -⟩
      rfl

/-- A group read from a `defaultdict`. -/
theorem getD_groupBy {α : Type} (key : α → κ) (l : List α) (k : κ) :
    ((groupBy key l).get? k).getD [] = l.filter (key · = k) := by
  rw [groupBy, get?_foldl_group]
  by_cases hnil : l.filter (key · = k) = []
  · simp [hnil]
  · simp [hnil]

/-- What is made of the groups and belongs to one key is made of that group. -/
theorem filter_flatMap_groupBy {α β : Type} {key : α → κ} {l : List α} {k : κ}
    {make : List α → List β} {p : β → Bool} (hnil : make [] = [])
    (hother : ∀ k' members, (k', members) ∈ (groupBy key l).entries → k' ≠ k →
      (make members).filter p = []) :
    ((groupBy key l).entries.flatMap fun e => make e.2).filter p =
      (make (l.filter (key · = k))).filter p := by
  rw [List.filter_flatMap]
  by_cases hgroup : l.filter (key · = k) = []
  · rw [hgroup, hnil]
    refine List.flatMap_eq_nil_iff.mpr ?_
    rintro ⟨k', members⟩ hentry
    refine hother k' members hentry ?_
    rintro rfl
    obtain ⟨hmembers, hne⟩ := mem_groupBy_iff.mp hentry
    exact hne (hmembers.trans hgroup)
  · have hmem : (k, l.filter (key · = k)) ∈ (groupBy key l).entries :=
      mem_groupBy_iff.mpr ⟨rfl, hgroup⟩
    obtain ⟨before, after, hentries⟩ := List.append_of_mem hmem
    have hnodup := (groupBy key l).nodup
    rw [hentries, List.map_append, List.map_cons, List.nodup_append] at hnodup
    obtain ⟨-, hafter, hbefore⟩ := hnodup
    rw [List.nodup_cons] at hafter
    have hothers : ∀ e ∈ before ++ after, (make e.2).filter p = [] := by
      rintro ⟨k', members⟩ he
      have hentry : (k', members) ∈ (groupBy key l).entries := by
        rw [hentries]
        rcases List.mem_append.mp he with he | he
        · exact List.mem_append_left _ he
        · exact List.mem_append_right _ (List.mem_cons_of_mem _ he)
      refine hother k' members hentry ?_
      rintro rfl
      rcases List.mem_append.mp he with he | he
      · exact hbefore k' (List.mem_map.mpr ⟨_, he, rfl⟩) k' List.mem_cons_self rfl
      · exact hafter.1 (List.mem_map.mpr ⟨_, he, rfl⟩)
    have hbefore' : before.flatMap (fun e => (make e.2).filter p) = [] :=
      List.flatMap_eq_nil_iff.mpr fun e he => hothers e (List.mem_append_left _ he)
    have hafter' : after.flatMap (fun e => (make e.2).filter p) = [] :=
      List.flatMap_eq_nil_iff.mpr fun e he => hothers e (List.mem_append_right _ he)
    rw [hentries, List.flatMap_append, List.flatMap_cons, hbefore', hafter', List.nil_append,
      List.append_nil]

/-- There are at most as many groups as elements. -/
theorem length_groupBy_le {α : Type} (key : α → κ) (l : List α) :
    (groupBy key l).entries.length ≤ l.length := by
  have hsubset : (groupBy key l).keys ⊆ l.map key := by
    intro k hk
    obtain ⟨⟨k', members⟩, hentry, rfl⟩ := List.mem_map.mp hk
    obtain ⟨rfl, hne⟩ := mem_groupBy_iff.mp hentry
    obtain ⟨a, ha⟩ := List.exists_mem_of_ne_nil _ hne
    obtain ⟨hmem, hkey⟩ := List.mem_filter.mp ha
    exact List.mem_map.mpr ⟨a, hmem, of_decide_eq_true hkey⟩
  have hle := (List.Nodup.subperm (groupBy key l).nodup_keys hsubset).length_le
  rwa [List.length_map, keys, List.length_map] at hle

end Dict
end Py
end SecureMail
