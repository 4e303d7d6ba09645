import Mathlib.Logic.Function.Basic

/-!
# Objects whose calls may fail

An object is called with one argument after another; each call returns or raises, and leaves the
object in some state either way. Such an object refines a specification if a call that returns does
what the specification says, and a call that raises is not seen. The specification here that matters
most is the map in which the last write to a key wins.

That a call may raise is part of the object and not of the trace, so the calls that returned are
computed along with the state, and the specification is run over just those. Nothing is said about
how many of them return: an object that always raises refines every specification, and what a client
may count on beyond that has to be stated of the object.
-/

namespace SecureMail
namespace Calls

variable {σ τ ι ε : Type*}

/-- The state after the calls, and the calls that returned. -/
def runCalls (call : σ → ι → Except ε Unit × σ) (s : σ) : List ι → σ × List ι
  | [] => (s, [])
  | i :: rest =>
    match call s i with
    | (.ok _, t) => ((runCalls call t rest).1, i :: (runCalls call t rest).2)
    | (.error _, t) => runCalls call t rest

/-- What one call has to do for the object to refine `spec` under the relation `R`. -/
def StepRefines (R : σ → τ → Prop) (call : σ → ι → Except ε Unit × σ) (spec : τ → ι → τ) : Prop :=
  ∀ s m i, R s m →
    match call s i with
    | (.ok _, t) => R t (spec m i)
    | (.error _, t) => R t m

/-- **A refinement of each call is one of every run**: the calls that returned are what happened. -/
theorem StepRefines.run {R : σ → τ → Prop} {call : σ → ι → Except ε Unit × σ} {spec : τ → ι → τ}
    (h : StepRefines R call spec) {calls : List ι} :
    ∀ {s : σ} {m : τ}, R s m →
      R (runCalls call s calls).1 ((runCalls call s calls).2.foldl spec m) := by
  induction calls with
  | nil =>
    intro s m hs
    exact hs
  | cons i rest ih =>
    intro s m hs
    have hstep := h s m i hs
    unfold runCalls
    rcases hcall : call s i with ⟨result, t⟩
    rw [hcall] at hstep
    cases result with
    | ok _ => exact ih hstep
    | error _ => exact ih hstep

/-! ## Last write wins -/

variable {κ ν : Type*} [DecidableEq κ]

/-- One write. -/
def write (m : κ → Option ν) (entry : κ × ν) : κ → Option ν :=
  Function.update m entry.1 (some entry.2)

/-- The map after these writes. -/
def lastWrite (writes : List (κ × ν)) : κ → Option ν := writes.foldl write fun _ => none

theorem write_self (m : κ → Option ν) (k : κ) (v : ν) : write m (k, v) k = some v := by
  simp [write]

theorem write_of_ne (m : κ → Option ν) {k k' : κ} (v : ν) (h : k' ≠ k) :
    write m (k, v) k' = m k' := by
  simp [write, h]

end Calls
end SecureMail
