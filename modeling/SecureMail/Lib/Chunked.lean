import SecureMail.Lib.Fallible

/-!
# Streams in chunks

A consumer takes a stream a chunk at a time and may give up. It is blind to the cuts when the empty
chunk changes nothing and a chunk in two pieces is taken as the first and then the second. A run
over any chunks is then one step over the whole stream (`Blind.foldlM_eq`), so two ways to cut
a stream give the same run, failure included.

The two conditions are about one step and say nothing of lists of chunks; a consumer whose state
holds a count and a buffer has to be shown to add up, once, and no induction over chunks is left for
its user.
-/

namespace SecureMail
namespace Chunked

variable {ε α σ : Type*}

/-- The consumer does not see where the stream is cut. -/
structure Blind (step : σ → List α → Except ε σ) : Prop where
  nil : ∀ s, step s [] = .ok s
  append : ∀ s chunk chunk', step s (chunk ++ chunk') = step s chunk >>= fun t => step t chunk'

variable {step : σ → List α → Except ε σ}

theorem Blind.foldlM_eq (h : Blind step) (chunks : List (List α)) (s : σ) :
    chunks.foldlM step s = step s chunks.flatten := by
  induction chunks generalizing s with
  | nil => exact (h.nil s).symm
  | cons chunk rest ih =>
    rw [List.foldlM_cons, List.flatten_cons, h.append]
    exact congrArg (step s chunk >>= ·) (funext ih)

theorem Blind.foldlM_congr (h : Blind step) {chunks chunks' : List (List α)}
    (hflatten : chunks.flatten = chunks'.flatten) (s : σ) :
    chunks.foldlM step s = chunks'.foldlM step s := by
  rw [h.foldlM_eq, h.foldlM_eq, hflatten]

end Chunked
end SecureMail
