import Mathlib.Data.List.Basic

/-!
# Codes that say where they end

A code is self-delimiting if a text that starts with the code of a value starts with no other code and
determines the value. Such codes can be written one after another without anything between them. Each
way to build one here comes with the codes it is built of, so that a format is read back by naming its
parts.

That a format is injective as a whole is a weaker fact, and a useless one for its parts: the codes of
two fields can both be injective and their concatenation not. A code that runs up to a separator is
only injective before that separator (`StopsAt`), and it becomes self-delimiting with the separator
written behind it.
-/

namespace SecureMail
namespace SelfDelimiting

variable {α γ : Type*} {enc : α → List γ}

/-- What starts with the code of a value is the code of that value and the rest. -/
def Delimits (enc : α → List γ) : Prop :=
  ∀ a b s t, enc a ++ s = enc b ++ t → a = b ∧ s = t

/-- The same of what has a stop behind the code. -/
def StopsAt (stop : γ → Prop) (enc : α → List γ) : Prop :=
  ∀ a b x y s t, stop x → stop y → enc a ++ x :: s = enc b ++ y :: t → a = b ∧ x :: s = y :: t

/-- A code with a decoder. -/
theorem delimits_of_decode (decode : List γ → Option (α × List γ))
    (h : ∀ a s, decode (enc a ++ s) = some (a, s)) : Delimits enc := by
  intro a b s t hab
  have hdecode := h a s
  rw [hab, h b t] at hdecode
  obtain ⟨rfl, rfl⟩ := Prod.mk.inj (Option.some.inj hdecode)
  exact ⟨rfl, rfl⟩

theorem append_cons_inj {stop : γ → Prop} {l l' s t : List γ} {x y : γ} (hx : stop x)
    (hy : stop y) (hl : ∀ c ∈ l, ¬stop c) (hl' : ∀ c ∈ l', ¬stop c)
    (h : l ++ x :: s = l' ++ y :: t) : l = l' ∧ x :: s = y :: t := by
  induction l generalizing l' with
  | nil =>
    cases l' with
    | nil => exact ⟨rfl, h⟩
    | cons c rest => exact absurd ((List.cons.inj h).1 ▸ hx) (hl' c List.mem_cons_self)
  | cons c rest ih =>
    cases l' with
    | nil => exact absurd ((List.cons.inj h).1 ▸ hy) (hl c List.mem_cons_self)
    | cons c' rest' =>
      obtain ⟨rfl, htail⟩ := List.cons.inj h
      obtain ⟨rfl, hrest⟩ := ih (fun d hd => hl d (List.mem_cons_of_mem c hd))
        (fun d hd => hl' d (List.mem_cons_of_mem c hd)) htail
      exact ⟨rfl, hrest⟩

/-- A code without a stop in it. -/
theorem stopsAt_of_free {stop : γ → Prop} (hinj : Function.Injective enc)
    (hfree : ∀ a, ∀ c ∈ enc a, ¬stop c) : StopsAt stop enc := by
  intro a b x y s t hx hy h
  obtain ⟨hcode, hrest⟩ := append_cons_inj hx hy (hfree a) (hfree b) h
  exact ⟨hinj hcode, hrest⟩

/-! ## Lists -/

/-- The codes of a list, up to a text that starts none of them. -/
theorem delimits_list (h : Delimits enc) {close : List γ}
    (hclose : ∀ a s t, enc a ++ s ≠ close ++ t) :
    Delimits fun l : List α => l.flatMap enc ++ close := by
  intro l
  induction l with
  | nil =>
    intro l' s t hab
    cases l' with
    | nil => exact ⟨rfl, List.append_cancel_left hab⟩
    | cons a rest =>
      simp only [List.flatMap_cons, List.flatMap_nil, List.nil_append, List.append_assoc] at hab
      exact absurd hab.symm (hclose a _ s)
  | cons a rest ih =>
    intro l' s t hab
    cases l' with
    | nil =>
      simp only [List.flatMap_cons, List.flatMap_nil, List.nil_append, List.append_assoc] at hab
      exact absurd hab (hclose a _ t)
    | cons a' rest' =>
      simp only [List.flatMap_cons, List.append_assoc] at hab
      obtain ⟨rfl, hrest⟩ := h a a' _ _ hab
      rw [← List.append_assoc, ← List.append_assoc] at hrest
      obtain ⟨rfl, hend⟩ := ih rest' s t hrest
      exact ⟨rfl, hend⟩

/-- The codes of a list with a separator between them, up to an end that starts none of them. -/
theorem delimits_separated {sep close : γ} (hne : sep ≠ close)
    (h : StopsAt (fun c => c = sep ∨ c = close) enc)
    (hclose : ∀ a s t, enc a ++ s ≠ close :: t) :
    Delimits fun l : List α => [sep].intercalate (l.map enc) ++ [close] := by
  have hone : ∀ a, [sep].intercalate [enc a] ++ [close] = enc a ++ [close] := by simp
  have hmore : ∀ a b rest, [sep].intercalate ((a :: b :: rest).map enc) ++ [close] =
      enc a ++ sep :: ([sep].intercalate ((b :: rest).map enc) ++ [close]) := by
    intro a b rest
    rw [List.map_cons, List.intercalate_cons_of_ne_nil (by simp)]
    simp
  have hnil : ∀ a rest s t, [close] ++ s ≠ [sep].intercalate ((a :: rest).map enc) ++ [close] ++ t := by
    intro a rest s t hab
    cases rest with
    | nil =>
      rw [List.map_singleton, hone, List.append_assoc] at hab
      exact hclose a _ _ hab.symm
    | cons b rest =>
      rw [hmore, List.append_assoc] at hab
      exact hclose a _ _ hab.symm
  intro l
  induction l with
  | nil =>
    intro l' s t hab
    cases l' with
    | nil => exact ⟨rfl, List.append_cancel_left hab⟩
    | cons a rest => exact absurd hab (hnil a rest s t)
  | cons a rest ih =>
    intro l' s t hab
    cases l' with
    | nil => exact absurd hab.symm (hnil a rest t s)
    | cons a' rest' =>
      -- Behind the first code stands a separator if there are more, and the end otherwise.
      cases rest with
      | nil =>
        cases rest' with
        | nil =>
          simp only [List.map_singleton, hone, List.append_assoc] at hab
          obtain ⟨rfl, hend⟩ := h a a' close close s t (Or.inr rfl) (Or.inr rfl) hab
          exact ⟨rfl, (List.cons.inj hend).2⟩
        | cons b' rest' =>
          simp only [List.map_singleton, hone, hmore, List.append_assoc] at hab
          obtain ⟨-, hend⟩ := h a a' close sep s _ (Or.inr rfl) (Or.inl rfl) hab
          exact absurd (List.cons.inj hend).1.symm hne
      | cons b rest =>
        cases rest' with
        | nil =>
          simp only [List.map_singleton, hone, hmore, List.append_assoc] at hab
          obtain ⟨-, hend⟩ := h a a' sep close _ t (Or.inl rfl) (Or.inr rfl) hab
          exact absurd (List.cons.inj hend).1 hne
        | cons b' rest' =>
          simp only [hmore, List.append_assoc, List.cons_append] at hab
          obtain ⟨rfl, hend⟩ := h a a' sep sep _ _ (Or.inl rfl) (Or.inl rfl) hab
          obtain ⟨hrest, hlast⟩ := ih (b' :: rest') s t
            (by rw [List.append_assoc, List.append_assoc]; exact (List.cons.inj hend).2)
          exact ⟨congrArg _ hrest, hlast⟩

end SelfDelimiting
end SecureMail
