import Mathlib.Data.List.Induction

/-!
# What a run has written

A loop that appends to a journal writes at each element what the element and the state it finds call
for. The journal of a run is read by the prefixes of the run: an entry is there because one element
wrote it in the state that the elements before it had made (`mem_foldl_iff`). A loop that cannot tell
two lists apart element by element writes the same journal for both (`foldl_congr`). A flag that some
elements set, whatever it was, and the others leave alone is what the last of the former set it to
(`flag_foldl`).
-/

namespace SecureMail
namespace Journal

variable {σ ε α : Type*} {step : σ → ε → σ} {journal : σ → List α} {writes : σ → ε → List α}

/-- The journal of a run, entry by entry. -/
theorem mem_foldl_iff (hstep : ∀ s e, journal (step s e) = journal s ++ writes s e) {s : σ}
    {l : List ε} {a : α} :
    a ∈ journal (l.foldl step s) ↔ a ∈ journal s ∨
      ∃ before e after, l = before ++ e :: after ∧ a ∈ writes (before.foldl step s) e := by
  induction l using List.reverseRecOn with
  | nil => simp
  | append_singleton l last ih =>
    rw [List.foldl_append, List.foldl_cons, List.foldl_nil, hstep, List.mem_append, ih, or_assoc]
    refine or_congr_right ?_
    constructor
    · rintro (⟨before, e, after, rfl, ha⟩ | ha)
      · exact ⟨before, e, after ++ [last], by simp, ha⟩
      · exact ⟨l, last, [], rfl, ha⟩
    · rintro ⟨before, e, after, heq, ha⟩
      rcases List.eq_nil_or_concat after with rfl | ⟨after, e', rfl⟩
      · obtain ⟨rfl, hlast⟩ := List.append_inj' heq rfl
        obtain rfl : last = e := by simpa using hlast
        exact Or.inr ha
      · rw [List.concat_eq_append, ← List.cons_append, ← List.append_assoc] at heq
        obtain ⟨rfl, -⟩ := List.append_inj' heq rfl
        exact Or.inl ⟨before, e, after, rfl, ha⟩

/-- Where every entry written has a property, the journal of a run has no other entries. -/
theorem forall_mem_foldl (hstep : ∀ s e, journal (step s e) = journal s ++ writes s e) {s : σ}
    {P : α → Prop} (hjournal : ∀ a ∈ journal s, P a) (hwrites : ∀ s e, ∀ a ∈ writes s e, P a)
    (l : List ε) : ∀ a ∈ journal (l.foldl step s), P a := by
  intro a ha
  rcases (mem_foldl_iff hstep).mp ha with ha | ⟨before, e, after, -, ha⟩
  · exact hjournal a ha
  · exact hwrites _ e a ha

/-- Lists whose elements a step cannot tell apart end a run in one state. -/
theorem foldl_congr {R : ε → ε → Prop} (hstep : ∀ s e e', R e e' → step s e = step s e')
    {l l' : List ε} (h : List.Forall₂ R l l') (s : σ) : l.foldl step s = l'.foldl step s := by
  induction h generalizing s with
  | nil => rfl
  | cons he _ ih =>
    rw [List.foldl_cons, List.foldl_cons, hstep s _ _ he]
    exact ih _

/-- A flag is where the last move left it. -/
theorem flag_foldl (flag : σ → Prop) {move : ε → Option Bool}
    (hmove : ∀ s e b, move e = some b → (flag (step s e) ↔ b = true))
    (hstay : ∀ s e, move e = none → (flag (step s e) ↔ flag s)) {s : σ} (hs : ¬flag s) (l : List ε) :
    flag (l.foldl step s) ↔ (l.filterMap move).getLast? = some true := by
  induction l using List.reverseRecOn with
  | nil => simp [hs]
  | append_singleton l e ih =>
    rw [List.foldl_append, List.foldl_cons, List.foldl_nil, List.filterMap_append]
    cases he : move e with
    | none => rw [hstay _ e he, ih]; simp [he]
    | some b => rw [hmove _ e b he]; simp [he]

end Journal
end SecureMail
