import Mathlib.Data.List.Basic
import Mathlib.Order.Lattice

/-!
# Passes that look back only

A list of elements that each have a time, in any order, and a pass that says something about each
element in view of the whole list. The pass is causal if what it says of an element depends on the
elements of the same time or earlier alone. Then two lists that agree up to a time are given the
same up to that time (`upTo_pass_congr`), whatever comes later in either. A causal pass over the
results of a causal pass is causal (`Causal.comp`).

The list is not in order of time, so "earlier" is a filter and not an initial segment; a pass may well
look an element's neighbours up by position, but what it finds there has to be decided by the filter.
Elements of one time count as each other's past; a pass that sees strictly earlier ones only is causal
too.
-/

namespace SecureMail
namespace Timed

variable {α β γ τ : Type*} [LinearOrder τ] {time : α → τ} {time' : β → τ} {l l' : List α} {s t : τ}

/-- The elements up to a time. -/
def upTo (time : α → τ) (t : τ) (l : List α) : List α := l.filter fun a => decide (time a ≤ t)

/-- The elements before a time. -/
def before (time : α → τ) (t : τ) (l : List α) : List α := l.filter fun a => decide (time a < t)

/-- What is said of an element depends on the elements up to its time. -/
def Causal (time : α → τ) (f : List α → α → β) : Prop :=
  ∀ ⦃l l' : List α⦄ ⦃a : α⦄, upTo time (time a) l = upTo time (time a) l' → f l a = f l' a

/-- A pass over a list. -/
def pass (f : List α → α → β) (l : List α) : List β := l.map (f l)

theorem upTo_upTo (h : s ≤ t) (l : List α) : upTo time s (upTo time t l) = upTo time s l := by
  rw [upTo, upTo, List.filter_filter]
  refine List.filter_congr fun a _ => ?_
  by_cases ha : time a ≤ s
  · simp [ha, ha.trans h]
  · simp [ha]

theorem before_upTo (l : List α) : before time t (upTo time t l) = before time t l := by
  rw [before, upTo, List.filter_filter]
  refine List.filter_congr fun a _ => ?_
  by_cases ha : time a < t
  · simp [ha, ha.le]
  · simp [ha]

/-- Lists that agree up to a time agree up to an earlier one. -/
theorem upTo_congr (h : s ≤ t) (hagree : upTo time t l = upTo time t l') :
    upTo time s l = upTo time s l' := by
  rw [← upTo_upTo h l, hagree, upTo_upTo h]

/-- And before it. -/
theorem before_congr (hagree : upTo time t l = upTo time t l') :
    before time t l = before time t l' := by
  rw [← before_upTo l, hagree, before_upTo]

/-- What comes before an element that agrees with another list up to a later time. -/
theorem before_congr_of_lt (h : s ≤ t) (hagree : before time t l = before time t l') :
    before time s l = before time s l' := by
  have hbefore : ∀ l : List α, before time s (before time t l) = before time s l := by
    intro l
    rw [before, before, List.filter_filter]
    refine List.filter_congr fun a _ => ?_
    by_cases ha : time a < s
    · simp [ha, ha.trans_le h]
    · simp [ha]
  rw [← hbefore l, hagree, hbefore]

/-- A list in order of time is what is up to a time and then the rest. -/
theorem eq_upTo_append (t : τ) (h : l.Pairwise fun a b => time a ≤ time b) :
    l = upTo time t l ++ l.filter fun a => decide (t < time a) := by
  induction l with
  | nil => rfl
  | cons a rest ih =>
    rw [List.pairwise_cons] at h
    obtain ⟨hfirst, hrest⟩ := h
    by_cases ha : time a ≤ t
    · have hnot : ¬ t < time a := not_lt.mpr ha
      rw [upTo, List.filter_cons_of_pos (by simpa using ha), List.filter_cons_of_neg (by simpa using ha),
        List.cons_append]
      exact congrArg (a :: ·) (ih hrest)
    · have hlater : ∀ b ∈ a :: rest, t < time b := by
        intro b hb
        rcases List.mem_cons.mp hb with rfl | hb
        · exact not_le.mp ha
        · exact (not_le.mp ha).trans_le (hfirst b hb)
      have hnone : upTo time t (a :: rest) = [] := by
        refine List.filter_eq_nil_iff.mpr fun b hb => ?_
        simpa using hlater b hb
      have hall : (a :: rest).filter (fun b => decide (t < time b)) = a :: rest := by
        refine List.filter_eq_self.mpr fun b hb => ?_
        simpa using hlater b hb
      rw [hnone, hall, List.nil_append]

/-- A pass keeps the times: what it says up to a time it says of the elements up to then. -/
theorem upTo_pass (f : List α → α → β) (htime : ∀ l a, time' (f l a) = time a) (l : List α) :
    upTo time' t (pass f l) = (upTo time t l).map (f l) := by
  rw [upTo, pass, List.filter_map, upTo]
  congr 1
  refine List.filter_congr fun a _ => ?_
  simp [htime]

theorem Causal.map_eq {f : List α → α → β} (hf : Causal time f)
    (hagree : upTo time t l = upTo time t l') :
    (upTo time t l).map (f l) = (upTo time t l').map (f l') := by
  rw [← hagree]
  refine List.map_congr_left fun a ha => ?_
  have hle : time a ≤ t := of_decide_eq_true (List.mem_filter.mp ha).2
  exact hf (upTo_congr hle hagree)

/-- **Two lists that agree up to a time are given the same up to it.** It is all that is known of a
causal pass, and it is what compositions of passes keep. -/
theorem upTo_pass_congr {f : List α → α → β} (hf : Causal time f)
    (htime : ∀ l a, time' (f l a) = time a) (hagree : upTo time t l = upTo time t l') :
    upTo time' t (pass f l) = upTo time' t (pass f l') := by
  rw [upTo_pass f htime, upTo_pass f htime, hf.map_eq hagree]

/-- The same with each element beside what it is given. -/
theorem filter_zip_pass_congr {f : List α → α → β} (hf : Causal time f)
    (hagree : upTo time t l = upTo time t l') :
    (l.zip (pass f l)).filter (fun p => decide (time p.1 ≤ t)) =
      (l'.zip (pass f l')).filter fun p => decide (time p.1 ≤ t) := by
  have hzip : ∀ l : List α, (l.zip (pass f l)).filter (fun p => decide (time p.1 ≤ t)) =
      (upTo time t l).map fun a => (a, f l a) := by
    intro l
    have hboth : l.zip (pass f l) = l.map fun a => (a, f l a) := by
      have hmap := @List.zip_map' _ _ _ id (f l) l
      simpa [pass] using hmap
    rw [hboth, List.filter_map]
    rfl
  have hpair : Causal time fun l a => (a, f l a) := by
    intro l l' a h
    show (a, f l a) = (a, f l' a)
    rw [hf h]
  rw [hzip, hzip, hpair.map_eq hagree]

/-- A causal pass over what a causal pass says. -/
theorem Causal.comp {f : List α → α → β} {g : List β → β → γ} (hg : Causal time' g)
    (hf : Causal time f) (htime : ∀ l a, time' (f l a) = time a) :
    Causal time fun l a => g (pass f l) (f l a) := by
  intro l l' a h
  have hsame : f l a = f l' a := hf h
  have hpass : upTo time' (time a) (pass f l) = upTo time' (time a) (pass f l') :=
    upTo_pass_congr hf htime h
  rw [← htime l a] at hpass
  show g (pass f l) (f l a) = g (pass f l') (f l' a)
  rw [hg hpass, hsame]

theorem pass_pass (f : List α → α → β) (g : List β → β → γ) (l : List α) :
    pass g (pass f l) = pass (fun l a => g (pass f l) (f l a)) l := by
  rw [pass, pass, pass, List.map_map]
  rfl

end Timed
end SecureMail
