import Mathlib.Logic.Basic

/-!
# Computations that raise and keep their state

An exception ends a computation and undoes nothing: the state is the one at the raise, and only a
handler puts back what is to be put back. `Ends x s Q R` says how `x` ends from `s`, with `Q` of the
value and the state where it returns and with `R` of the exception and the state where it raises.
Both are needed of a computation whose failures matter as much as its results. One rule for each way
to build a computation reduces `Ends` to the primitives, and a loop follows the pure loop that
computes its values (`ends_foldlM`).
-/

namespace SecureMail
namespace Handlers

/-- A computation on a state `σ` that may raise an `ε`. -/
abbrev Effect (ε σ α : Type) := ExceptT ε (StateM σ) α

variable {ε δ σ α β : Type} {s : σ} {Q Q' : α → σ → Prop} {R R' : ε → σ → Prop}

/-- What `x` returns or raises, and the state after it. -/
def outcome (x : Effect ε σ α) (s : σ) : Except ε α × σ := x.run.run s

/-- Raises the exception of a pure computation. -/
def raising (wrap : δ → ε) : Except δ α → Effect ε σ α
  | .ok a => pure a
  | .error d => throw (wrap d)

structure Ends (x : Effect ε σ α) (s : σ) (Q : α → σ → Prop) (R : ε → σ → Prop) : Prop where
  returned : ∀ {a t}, outcome x s = (.ok a, t) → Q a t
  raised : ∀ {e t}, outcome x s = (.error e, t) → R e t

theorem ends_of_ok {x : Effect ε σ α} {a : α} {t : σ} (hx : outcome x s = (.ok a, t)) :
    Ends x s Q R ↔ Q a t := by
  constructor
  · intro h
    exact h.returned hx
  · intro h
    constructor
    · intro a' t' hx'
      cases hx.symm.trans hx'
      exact h
    · intro e t' hx'
      cases hx.symm.trans hx'

theorem ends_of_error {x : Effect ε σ α} {e : ε} {t : σ} (hx : outcome x s = (.error e, t)) :
    Ends x s Q R ↔ R e t := by
  constructor
  · intro h
    exact h.raised hx
  · intro h
    constructor
    · intro a t' hx'
      cases hx.symm.trans hx'
    · intro e' t' hx'
      cases hx.symm.trans hx'
      exact h

theorem ends_congr {x y : Effect ε σ α} {t : σ} (h : outcome x s = outcome y t) :
    Ends x s Q R ↔ Ends y t Q R := by
  constructor
  · intro hx
    exact ⟨fun hy => hx.returned (h.trans hy), fun hy => hx.raised (h.trans hy)⟩
  · intro hy
    exact ⟨fun hx => hy.returned (h.symm.trans hx), fun hx => hy.raised (h.symm.trans hx)⟩

theorem Ends.mono {x : Effect ε σ α} (h : Ends x s Q R) (hQ : ∀ a t, Q a t → Q' a t)
    (hR : ∀ e t, R e t → R' e t) : Ends x s Q' R' where
  returned hx := hQ _ _ (h.returned hx)
  raised hx := hR _ _ (h.raised hx)

/-- A computation ends one way or the other. -/
theorem Ends.elim {x : Effect ε σ α} {P : Prop} (h : Ends x s Q R)
    (hQ : ∀ a t, outcome x s = (.ok a, t) → Q a t → P)
    (hR : ∀ e t, outcome x s = (.error e, t) → R e t → P) : P := by
  rcases hx : outcome x s with ⟨e | a, t⟩
  · exact hR e t hx (h.raised hx)
  · exact hQ a t hx (h.returned hx)

@[simp] theorem ends_pure {a : α} : Ends (pure a : Effect ε σ α) s Q R ↔ Q a s := ends_of_ok rfl

@[simp] theorem ends_throw {e : ε} : Ends (throw e : Effect ε σ α) s Q R ↔ R e s :=
  ends_of_error rfl

@[simp] theorem ends_get {Q : σ → σ → Prop} : Ends (get : Effect ε σ σ) s Q R ↔ Q s s :=
  ends_of_ok rfl

@[simp] theorem ends_modify {f : σ → σ} {Q : PUnit → σ → Prop} :
    Ends (modify f : Effect ε σ PUnit) s Q R ↔ Q () (f s) := ends_of_ok rfl

theorem outcome_bind (x : Effect ε σ α) (f : α → Effect ε σ β) :
    outcome (x >>= f) s =
      match outcome x s with
      | (.ok a, t) => outcome (f a) t
      | (.error e, t) => (.error e, t) := by
  show outcome (ExceptT.bind x f) s = _
  unfold outcome
  simp only [ExceptT.bind, ExceptT.run, ExceptT.mk, StateT.run, bind, StateT.bind]
  rcases x s with ⟨_ | _, t⟩ <;> rfl

@[simp] theorem ends_bind {x : Effect ε σ α} {f : α → Effect ε σ β} {Q : β → σ → Prop} :
    Ends (x >>= f) s Q R ↔ Ends x s (fun a t => Ends (f a) t Q R) R := by
  have hbind := outcome_bind x f (s := s)
  rcases hx : outcome x s with ⟨e | a, t⟩
  · rw [hx] at hbind
    rw [ends_of_error hx, ends_of_error hbind]
  · rw [hx] at hbind
    rw [ends_of_ok hx]
    exact ends_congr hbind

theorem outcome_tryCatch (x : Effect ε σ α) (handle : ε → Effect ε σ α) :
    outcome (tryCatch x handle) s =
      match outcome x s with
      | (.ok a, t) => (.ok a, t)
      | (.error e, t) => outcome (handle e) t := by
  show outcome (ExceptT.tryCatch x handle) s = _
  unfold outcome
  simp only [ExceptT.tryCatch, ExceptT.run, ExceptT.mk, StateT.run, bind, StateT.bind]
  rcases x s with ⟨_ | _, t⟩ <;> rfl

/-- The handler runs in the state of the raise. -/
@[simp] theorem ends_tryCatch {x : Effect ε σ α} {handle : ε → Effect ε σ α} :
    Ends (tryCatch x handle) s Q R ↔ Ends x s Q fun e t => Ends (handle e) t Q R := by
  have hcatch := outcome_tryCatch x handle (s := s)
  rcases hx : outcome x s with ⟨e | a, t⟩
  · rw [hx] at hcatch
    rw [ends_of_error hx]
    exact ends_congr hcatch
  · rw [hx] at hcatch
    rw [ends_of_ok hx, ends_of_ok hcatch]

@[simp] theorem ends_raising {wrap : δ → ε} {x : Except δ α} : Ends (raising wrap x) s Q R ↔
    (∀ a, x = .ok a → Q a s) ∧ ∀ d, x = .error d → R (wrap d) s := by
  cases x with
  | ok a =>
    show Ends (pure a) s Q R ↔ _
    simp
  | error d =>
    show Ends (throw (wrap d)) s Q R ↔ _
    simp

/-- **A loop follows the pure loop of its values**: while `I` ties the state to the value, it returns
what the pure loop returns, and it raises where the pure loop does or with `R'`. -/
theorem ends_foldlM {step : β → α → Effect ε σ β} {pureStep : β → α → Except δ β}
    {I : β → σ → Prop} {R : δ → ε → σ → Prop}
    (hstep : ∀ b a s, I b s → Ends (step b a) s (fun b' t => pureStep b a = .ok b' ∧ I b' t)
      fun e t => (∃ d, pureStep b a = .error d ∧ R d e t) ∨ R' e t)
    {l : List α} {b : β} (h : I b s) :
    Ends (l.foldlM step b) s (fun b' t => l.foldlM pureStep b = .ok b' ∧ I b' t)
      fun e t => (∃ d, l.foldlM pureStep b = .error d ∧ R d e t) ∨ R' e t := by
  induction l generalizing b s with
  | nil => exact ends_pure.mpr ⟨rfl, h⟩
  | cons a rest ih =>
    rw [List.foldlM_cons, List.foldlM_cons, ends_bind]
    apply (hstep b a s h).mono
    · rintro b' t ⟨hpure, ht⟩
      rw [hpure]
      exact ih ht
    · rintro e t (⟨d, hpure, hd⟩ | he)
      · rw [hpure]
        exact Or.inl ⟨d, rfl, hd⟩
      · exact Or.inr he

end Handlers
end SecureMail
