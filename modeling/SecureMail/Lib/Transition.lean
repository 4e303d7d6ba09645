import Mathlib.Data.List.Basic

/-!
# Runs of a labelled transition relation

A system of several parties that take turns is a relation `step s a t`: in state `s` the action `a`
may happen and leaves `t`. A run keeps the actions it took, in order, so a statement about a run
can speak of its states (`Run.invariant`), of what has happened up to a state
(`Run.trace_invariant`), of what cannot happen any more (`Run.forall_mem`), or of how often
something happens at all (`Run.countP_le`).

A run grows at its end. An invariant is then shown for the last step of a run that had it before,
which is how a step lemma reads, and a run that is split has its two parts as runs.

`Run.not_flawed_iff` is for laws that hold of a run exactly when all its steps keep to a rule. The
rule is about the state before a step. What makes the equivalence exact is a flaw, a property of
states that no step removes and only a step against the rule brings in.
-/

namespace SecureMail
namespace Transition

variable {σ α : Type*}

/-- `Run step s trace t`: the actions of `trace`, one after the other, lead from `s` to `t`. -/
inductive Run (step : σ → α → σ → Prop) : σ → List α → σ → Prop
  | nil (s : σ) : Run step s [] s
  | snoc {s t u : σ} {trace : List α} {a : α} :
      Run step s trace t → step t a u → Run step s (trace ++ [a]) u

variable {step step' : σ → α → σ → Prop} {s t u : σ} {trace : List α}

theorem Run.append {trace' : List α} (h : Run step s trace t) (h' : Run step t trace' u) :
    Run step s (trace ++ trace') u := by
  induction h' with
  | nil => simpa using h
  | snoc _ hstep ih =>
    rw [← List.append_assoc]
    exact ih.snoc hstep

theorem Run.single {a : α} (h : step s a t) : Run step s [a] t :=
  (Run.nil s).snoc h

theorem Run.cons {a : α} (h : step s a t) (h' : Run step t trace u) :
    Run step s (a :: trace) u :=
  (Run.single h).append h'

/-- A run of one relation is a run of every relation that allows its steps. -/
theorem Run.mono (hstep : ∀ s a t, step s a t → step' s a t) (h : Run step s trace t) :
    Run step' s trace t := by
  induction h with
  | nil => exact .nil _
  | snoc _ hlast ih => exact ih.snoc (hstep _ _ _ hlast)

/-- A run that a function takes. -/
theorem Run.of_foldlM {next : σ → α → Option σ} (hnext : ∀ s a t, next s a = some t → step s a t) :
    ∀ {trace : List α} {s : σ}, trace.foldlM next s = some t → Run step s trace t := by
  intro trace
  induction trace with
  | nil =>
    intro s h
    obtain rfl : s = t := by simpa using h
    exact .nil s
  | cons a rest ih =>
    intro s h
    rw [List.foldlM_cons] at h
    cases hfirst : next s a with
    | none => simp [hfirst] at h
    | some u =>
      rw [hfirst] at h
      exact Run.cons (hnext _ _ _ hfirst) (ih h)

/-- What every step keeps, every run keeps. -/
theorem Run.invariant {I : σ → Prop} (hstep : ∀ s a t, I s → step s a t → I t)
    (h : Run step s trace t) (hs : I s) : I t := by
  induction h with
  | nil => exact hs
  | snoc _ hlast ih => exact hstep _ _ _ ih hlast

/-- An invariant that may also speak of the actions so far. -/
theorem Run.trace_invariant {I : List α → σ → Prop}
    (hstep : ∀ trace s a t, I trace s → step s a t → I (trace ++ [a]) t)
    (h : Run step s trace t) (hs : I [] s) : I trace t := by
  induction h with
  | nil => exact hs
  | snoc _ hlast ih => exact hstep _ _ _ _ ih hlast

/-- An action that no step takes from a state with the invariant is in no run from one. -/
theorem Run.forall_mem {I : σ → Prop} {P : α → Prop}
    (hstep : ∀ s a t, I s → step s a t → I t ∧ P a) (h : Run step s trace t) (hs : I s) :
    ∀ a ∈ trace, P a := by
  have hboth : I t ∧ ∀ a ∈ trace, P a := by
    induction h with
    | nil => exact ⟨hs, by simp⟩
    | snoc _ hlast ih =>
      obtain ⟨hI, hP⟩ := ih
      obtain ⟨hI', hPa⟩ := hstep _ _ _ hI hlast
      refine ⟨hI', ?_⟩
      intro a ha
      rcases List.mem_append.mp ha with ha | ha
      · exact hP a ha
      · exact List.mem_singleton.mp ha ▸ hPa
  exact hboth.2

/-- A run is cut at any of its actions. -/
theorem Run.split {pre post : List α} {a : α} (h : Run step s trace t)
    (htrace : trace = pre ++ a :: post) :
    ∃ v w, Run step s pre v ∧ step v a w ∧ Run step w post t := by
  induction h generalizing post with
  | nil => simp at htrace
  | snoc hinit hlast ih =>
    rcases List.eq_nil_or_concat post with rfl | ⟨post', b, rfl⟩
    · obtain ⟨rfl, hlabel⟩ := List.append_inj' htrace rfl
      obtain rfl : _ = a := by simpa using hlabel
      exact ⟨_, _, hinit, hlast, .nil _⟩
    · rw [List.concat_eq_append, ← List.cons_append, ← List.append_assoc] at htrace
      obtain ⟨hpre, hlabel⟩ := List.append_inj' htrace rfl
      obtain rfl : _ = b := by simpa using hlabel
      obtain ⟨v, w, hv, hvw, hw⟩ := ih hpre
      refine ⟨v, w, hv, hvw, ?_⟩
      rw [List.concat_eq_append]
      exact hw.snoc hlast

/-- Actions that each use up some of a measure no other action refills are bounded by it. -/
theorem Run.countP_le {I : σ → Prop} {p : α → Bool} {measure : σ → Nat}
    (hstep : ∀ s a t, I s → step s a t →
      I t ∧ measure t + (if p a then 1 else 0) ≤ measure s)
    (h : Run step s trace t) (hs : I s) : trace.countP p ≤ measure s := by
  have hboth : I t ∧ measure t + trace.countP p ≤ measure s := by
    induction h with
    | nil => exact ⟨hs, by simp⟩
    | snoc _ hlast ih =>
      obtain ⟨hI, hle⟩ := ih
      obtain ⟨hI', hle'⟩ := hstep _ _ _ hI hlast
      refine ⟨hI', ?_⟩
      rw [List.countP_append, List.countP_singleton]
      omega
  omega

/-- A flaw that comes exactly from the steps that break a rule: a run is without it in the end if it
was in the beginning and all its steps keep to the rule. -/
theorem Run.not_flawed_iff {I flawed : σ → Prop} {rule : σ → α → Prop}
    (hinv : ∀ s a t, I s → step s a t → I t)
    (hflaw : ∀ s a t, I s → step s a t → (flawed t ↔ flawed s ∨ ¬ rule s a))
    (h : Run step s trace t) (hs : I s) :
    ¬ flawed t ↔ ¬ flawed s ∧ Run (fun s a t => step s a t ∧ rule s a) s trace t := by
  constructor
  · intro hfinal
    induction h with
    | nil => exact ⟨hfinal, .nil _⟩
    | snoc hinit hlast ih =>
      have hI := hinit.invariant hinv hs
      have hstep := mt (hflaw _ _ _ hI hlast).mpr hfinal
      rw [not_or, not_not] at hstep
      obtain ⟨hclean, hrun⟩ := ih hstep.1
      exact ⟨hclean, hrun.snoc ⟨hlast, hstep.2⟩⟩
  · rintro ⟨hclean, hrun⟩
    have hboth : I t ∧ ¬ flawed t := by
      refine hrun.invariant (I := fun s => I s ∧ ¬ flawed s) ?_ ⟨hs, hclean⟩
      rintro s a t ⟨hI, hnot⟩ ⟨hstep, hrule⟩
      refine ⟨hinv _ _ _ hI hstep, ?_⟩
      intro hflawed
      rcases (hflaw _ _ _ hI hstep).mp hflawed with hbefore | hbroken
      · exact hnot hbefore
      · exact hbroken hrule
    exact hboth.2

end Transition
end SecureMail
