import Mathlib.Algebra.GroupWithZero.Nat
import Mathlib.Data.List.Intervals
import Mathlib.Data.Finset.Card

/-!
# Counting what pieces cover

A set is given in pieces, each a list without repeats, and its size is taken to be the sum of their
lengths. That is right where no two pieces share an element and wrong everywhere else
(`card_cover_eq_iff`). The pieces that matter here are half-open spans of positions, each under a
key: two of them share a position when they have one key and the later start is before the earlier
end.

The general statement needs nothing but a list and the sets its entries stand for. It comes down to
the fact that a list has as many members as places iff it repeats none, put to the concatenation of
all the pieces; an empty piece, which shares nothing with any other, needs no case of its own.
-/

namespace SecureMail
namespace Coverage

variable {α β κ : Type*}

/-- What the pieces cover. -/
def cover [DecidableEq β] (piece : α → List β) (l : List α) : Finset β := (l.flatMap piece).toFinset

/-- A list has as many members as it has places iff it repeats none. -/
theorem card_toFinset_eq_length_iff [DecidableEq β] {l : List β} :
    l.toFinset.card = l.length ↔ l.Nodup := by
  rw [List.card_toFinset]
  constructor
  · intro h
    exact List.dedup_eq_self.mp ((List.dedup_sublist l).eq_of_length h)
  · intro h
    rw [List.dedup_eq_self.mpr h]

/-- **Adding up the pieces counts every element once iff no two pieces share one.** So a sum of
lengths is the size of a union just for pieces that are disjoint. -/
theorem card_cover_eq_iff [DecidableEq β] {piece : α → List β} {l : List α}
    (hpiece : ∀ a ∈ l, (piece a).Nodup) :
    (cover piece l).card = (l.map fun a => (piece a).length).sum ↔
      l.Pairwise fun a b => (piece a).Disjoint (piece b) := by
  rw [cover, ← List.length_flatMap, card_toFinset_eq_length_iff, List.nodup_flatMap]
  constructor
  · exact fun h => h.2
  · exact fun h => ⟨hpiece, h⟩

/-! ## Spans -/

/-- The positions of a half-open span, under its key. -/
def span (key : κ) (start stop : ℕ) : List (κ × ℕ) := (List.Ico start stop).map (Prod.mk key)

theorem mem_span {key : κ} {start stop : ℕ} {p : κ × ℕ} :
    p ∈ span key start stop ↔ p.1 = key ∧ start ≤ p.2 ∧ p.2 < stop := by
  obtain ⟨k, n⟩ := p
  simp only [span, List.mem_map, List.Ico.mem, Prod.mk.injEq, exists_eq_right_right]
  constructor
  · rintro ⟨hbounds, rfl⟩
    exact ⟨rfl, hbounds⟩
  · rintro ⟨rfl, hbounds⟩
    exact ⟨hbounds, rfl⟩

@[simp] theorem length_span (key : κ) (start stop : ℕ) :
    (span key start stop).length = stop - start := by
  rw [span, List.length_map, List.Ico.length]

theorem nodup_span (key : κ) (start stop : ℕ) : (span key start stop).Nodup :=
  (List.Ico.nodup start stop).map (Prod.mk_right_injective key)

/-- Two spans share no position: they have two keys, or one ends before the other starts. -/
theorem disjoint_span_iff {key key' : κ} {start stop start' stop' : ℕ} :
    (span key start stop).Disjoint (span key' start' stop') ↔
      (key = key' → min stop stop' ≤ max start start') := by
  constructor
  · intro hdisjoint hkey
    by_contra hlt
    -- The later of the two starts is in both spans.
    have hleft : (key, max start start') ∈ span key start stop :=
      mem_span.mpr ⟨rfl, by omega, by omega⟩
    have hright : (key, max start start') ∈ span key' start' stop' :=
      mem_span.mpr ⟨hkey, by omega, by omega⟩
    exact hdisjoint hleft hright
  · intro h p hp hp'
    obtain ⟨hkey, hstart, hstop⟩ := mem_span.mp hp
    obtain ⟨hkey', hstart', hstop'⟩ := mem_span.mp hp'
    have hmeet := h (hkey.symm.trans hkey')
    omega

end Coverage
end SecureMail
