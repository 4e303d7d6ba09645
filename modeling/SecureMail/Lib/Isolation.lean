import SecureMail.Lib.Fallible

/-!
# One party's share of a run

A run over one list handles the elements of many parties in one state, and a party sees its share of
that state. Where the elements of the others leave the share alone, and the party's own elements do
the same to equal shares, the share after a run is decided by the party's own elements in their
order (`share_eq_of_filter_eq`): neither what else is in the list nor where it stands matters. The
two runs may differ in what their steps know of the other parties, so the rule is about two steps.
-/

namespace SecureMail
namespace Isolation

universe u

variable {ε α : Type*} {σ : Type u} {ν : Type*}

/-- The elements of other parties leave the share as it is. -/
def Spares (step : σ → α → Except ε σ) (share : σ → ν) (own : α → Bool) : Prop :=
  ∀ s s' a, own a = false → step s a = .ok s' → share s' = share s

variable {step step' : σ → α → Except ε σ} {share : σ → ν} {own : α → Bool}

/-- A run over the elements of others leaves the share as it was. -/
theorem Spares.run (h : Spares step share own) {l : List α} (hothers : ∀ a ∈ l, own a = false)
    {s s' : σ} (hrun : l.foldlM step s = .ok s') : share s' = share s := by
  refine Fallible.foldlM_invariant hrun (P := fun t => share t = share s) rfl ?_
  intro t t' a ha hstep ht
  rw [h t t' a (hothers a ha) hstep, ht]

/-- **The share of a party is decided by its own elements.** The elements of the others may differ
in every way, and so may their number. -/
theorem share_eq_of_filter_eq (h : Spares step share own) (h' : Spares step' share own)
    {l l' : List α} (hfilter : l.filter own = l'.filter own)
    (hown : ∀ a ∈ l, own a = true → ∀ s s' t t', share s = share t → step s a = .ok s' →
      step' t a = .ok t' → share s' = share t')
    {s s' t t' : σ} (hst : share s = share t) (hrun : l.foldlM step s = .ok s')
    (hrun' : l'.foldlM step' t = .ok t') : share s' = share t' := by
  induction l generalizing l' s t with
  | nil =>
    obtain rfl := Fallible.pure_eq_ok.mp hrun
    have hothers : ∀ a ∈ l', own a = false := by
      intro a ha
      simpa using List.filter_eq_nil_iff.mp hfilter.symm a ha
    rw [h'.run hothers hrun', hst]
  | cons a rest ih =>
    have hrest : ∀ b ∈ rest, own b = true → ∀ s s' t t', share s = share t → step s b = .ok s' →
        step' t b = .ok t' → share s' = share t' :=
      fun b hb => hown b (List.mem_cons_of_mem a hb)
    obtain ⟨m, hm, hrun⟩ := Fallible.foldlM_cons_eq_ok.mp hrun
    cases ha : own a with
    | false =>
      rw [List.filter_cons_of_neg (by simp [ha])] at hfilter
      exact ih hfilter hrest ((h s m a ha hm).trans hst) hrun hrun'
    | true =>
      -- The second run comes to this element after elements of others alone.
      rw [List.filter_cons_of_pos ha] at hfilter
      obtain ⟨pre, post, rfl, hpre, _, hpost⟩ := List.filter_eq_cons_iff.mp hfilter.symm
      rw [List.foldlM_append] at hrun'
      obtain ⟨p, hp, hrun'⟩ := Fallible.bind_eq_ok.mp hrun'
      obtain ⟨m', hm', hrun'⟩ := Fallible.foldlM_cons_eq_ok.mp hrun'
      have hothers : ∀ b ∈ pre, own b = false := by
        intro b hb
        simpa using hpre b hb
      have hsp : share s = share p := hst.trans (h'.run hothers hp).symm
      have hmm' : share m = share m' := hown a List.mem_cons_self ha s m p m' hsp hm hm'
      exact ih hpost.symm hrest hmm' hrun hrun'

end Isolation
end SecureMail
