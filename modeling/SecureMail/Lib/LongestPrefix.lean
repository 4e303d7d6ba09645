import Mathlib.Data.List.Infix
import Mathlib.Data.List.Pairwise

/-!
# Longest match by order

A table is searched for an entry whose key begins a text, and the first such entry is taken. It is
the entry with the longest key as soon as no key begins the key of a later entry: two keys that
begin the same text begin each other, and only the later of the two may begin the earlier.

The condition is decidable and about the table alone, a pair of entries at a time, and it is weaker
than the order by length that tables of this kind are usually written in. Keys are lists over any
type, so that a key can be a list of words and a match be at a boundary between words.
-/

namespace SecureMail
namespace LongestPrefix

variable {α β : Type*}

/-- No key begins the key of a later entry. -/
def Ordered (key : α → List β) (table : List α) : Prop :=
  table.Pairwise fun a b => ¬ key a <+: key b

instance [DecidableEq β] (key : α → List β) (table : List α) : Decidable (Ordered key table) :=
  inferInstanceAs (Decidable (table.Pairwise _))

variable {key : α → List β} {table : List α} {text : List β}

/-- Of two keys that begin one text, the one that stands later begins the other and is shorter. -/
theorem length_lt_of_not_prefix {a b : List β} (ha : a <+: text) (hb : b <+: text)
    (h : ¬ a <+: b) : b <+: a ∧ b.length < a.length := by
  have hlength : b.length < a.length := by
    by_contra hle
    exact h (List.prefix_of_prefix_length_le ha hb (Nat.le_of_not_lt hle))
  exact ⟨List.prefix_of_prefix_length_le hb ha hlength.le, hlength⟩

/-- What the first match is: every other match is a shorter beginning of it. -/
theorem prefix_of_find? [DecidableEq β] {a : α} (hordered : Ordered key table)
    (h : (table.find? fun e => decide (key e <+: text)) = some a) :
    ∀ b ∈ table, b ≠ a → key b <+: text → key b <+: key a ∧ (key b).length < (key a).length := by
  obtain ⟨hmatch, before, after, rfl, hbefore⟩ := List.find?_eq_some_iff_append.mp h
  intro b hb hne hfront
  rcases List.mem_append.mp hb with hb | hb
  · have hnot := hbefore b hb
    simp [hfront] at hnot
  · rcases List.mem_cons.mp hb with rfl | hb
    · exact absurd rfl hne
    · have htail := (List.pairwise_append.mp hordered).2.1
      exact length_lt_of_not_prefix (of_decide_eq_true hmatch) hfront
        (List.rel_of_pairwise_cons htail hb)

/-- **The first match is the longest.** It needs of the list that no entry stands before a longer
one that begins with it. -/
theorem find?_eq_some_iff [DecidableEq β] {a : α} (hordered : Ordered key table) :
    (table.find? fun e => decide (key e <+: text)) = some a ↔
      a ∈ table ∧ key a <+: text ∧
        ∀ b ∈ table, b ≠ a → key b <+: text → key b <+: key a ∧ (key b).length < (key a).length := by
  constructor
  · intro h
    exact ⟨List.mem_of_find?_eq_some h,
      of_decide_eq_true (List.find?_some (p := fun e => decide (key e <+: text)) h),
      prefix_of_find? hordered h⟩
  · rintro ⟨hmem, hmatch, hlongest⟩
    cases hfind : table.find? fun e => decide (key e <+: text) with
    | none =>
      have hnot := List.find?_eq_none.mp hfind a hmem
      simp [hmatch] at hnot
    | some first =>
      by_cases hsame : first = a
      · rw [hsame]
      · -- Each of the two would be shorter than the other.
        have hfirst : key first <+: text :=
          of_decide_eq_true (List.find?_some (p := fun e => decide (key e <+: text)) hfind)
        have hlt := (hlongest first (List.mem_of_find?_eq_some hfind) hsame hfirst).2
        have hgt := (prefix_of_find? hordered hfind a hmem (Ne.symm hsame) hmatch).2
        omega

/-- No match is found exactly when no key begins the text. -/
theorem find?_eq_none_iff [DecidableEq β] :
    (table.find? fun e => decide (key e <+: text)) = none ↔
      ∀ a ∈ table, ¬ key a <+: text := by
  simp only [List.find?_eq_none, decide_eq_true_eq]

end LongestPrefix
end SecureMail
