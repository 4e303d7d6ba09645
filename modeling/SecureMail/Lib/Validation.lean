import SecureMail.Lib.Fallible

/-!
# Records that are validated

A record has a list of checks, each with the error of its failure. Validation raises the error of the
first check that fails and otherwise returns the record with the proof that all hold, so a validated
record needs no second look: a bound on one of its fields is read off its type.

The checks are a list and not a predicate because their order decides which error is raised where
more than one of them fails. For a record that exists the order is of no interest, and `Passes` has
forgotten it.
-/

namespace SecureMail
namespace Validation

open Fallible (Returns)

universe u

variable {ε : Type*} {α : Type u}

/-- The length of a text is within the bounds of a field. -/
def within (low high : Nat) (s : String) : Bool := low ≤ s.length && s.length ≤ high

@[simp] theorem within_iff {low high : Nat} {s : String} :
    within low high s = true ↔ low ≤ s.length ∧ s.length ≤ high := by
  rw [within, Bool.and_eq_true, decide_eq_true_eq, decide_eq_true_eq]

/-- All checks hold. -/
def Passes (checks : List (Bool × ε)) : Prop := ∀ check ∈ checks, check.1 = true

@[simp] theorem passes_nil : Passes ([] : List (Bool × ε)) := by
  intro check hcheck
  cases hcheck

@[simp] theorem passes_cons {check : Bool × ε} {rest : List (Bool × ε)} :
    Passes (check :: rest) ↔ check.1 = true ∧ Passes rest := List.forall_mem_cons

/-- A record whose checks hold. -/
abbrev Validated (checks : α → List (Bool × ε)) := { a : α // Passes (checks a) }

/-- The record, or the error of the first check that fails. -/
def validate (checks : α → List (Bool × ε)) (a : α) : Except ε (Validated checks) :=
  match h : (checks a).find? (!·.1) with
  | some failure => .error failure.2
  | none => .ok ⟨a, by simpa [Passes] using h⟩

variable {checks : α → List (Bool × ε)} {a : α} {b : Validated checks}

theorem validate_of_passes (h : Passes (checks a)) : validate checks a = .ok ⟨a, h⟩ := by
  unfold validate
  split
  · rename_i failure hfailure
    have hfails := List.find?_some hfailure
    rw [h failure (List.mem_of_find?_eq_some hfailure)] at hfails
    cases hfails
  · rfl

theorem val_of_validate (h : validate checks a = .ok b) : b.val = a := by
  unfold validate at h
  split at h
  · cases h
  · cases h
    rfl

/-- **Validation returns exactly the records whose checks hold.** Which check is the first to fail
matters for the error only. -/
theorem validate_eq_ok_iff : validate checks a = .ok b ↔ b.val = a := by
  constructor
  · exact val_of_validate
  · rintro rfl
    exact validate_of_passes b.property

theorem returns_validate_iff : Returns (validate checks a) ↔ Passes (checks a) := by
  constructor
  · rintro ⟨b, h⟩
    rw [← val_of_validate h]
    exact b.property
  · intro h
    exact ⟨_, validate_of_passes h⟩

end Validation
end SecureMail
