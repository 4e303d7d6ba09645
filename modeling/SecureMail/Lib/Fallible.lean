import Mathlib.Data.List.Forall2
import Mathlib.Data.List.Perm.Basic

/-!
# Runs that may fail

A loop whose body can raise is `List.foldlM` in `Except`. Six rules cover what is proved about
such loops here. A table that each element adds to holds, after a run that returns, what it held
before and what the elements add (`foldlM_collect`). A relation that a step restores is kept by a
run that returns (`foldlM_invariant`). A slot holds what the last element that writes it wrote
(`foldlM_last`). Two lists whose elements the step cannot tell apart give the
same run, failure included (`foldlM_congr`). A loop whose body computes a value and adds it has a journal
of the values it computed (`foldlM_journal`). And a loop returns at all if and only if each of its
steps does (`returns_foldlM_iff`).
-/

namespace SecureMail
namespace Fallible

universe u

variable {ε α : Type*} {σ τ : Type u}

theorem bind_eq_ok {x : Except ε σ} {f : σ → Except ε τ} {b : τ} :
    x >>= f = .ok b ↔ ∃ a, x = .ok a ∧ f a = .ok b := by
  cases x with
  | error e =>
    constructor
    · intro h
      cases h
    · rintro ⟨a, ha, -⟩
      cases ha
  | ok a =>
    constructor
    · intro h
      exact ⟨a, rfl, h⟩
    · rintro ⟨a', ha, hf⟩
      cases ha
      exact hf

theorem bind_eq_error {x : Except ε σ} {f : σ → Except ε τ} {e : ε} :
    x >>= f = .error e ↔ x = .error e ∨ ∃ a, x = .ok a ∧ f a = .error e := by
  cases x with
  | error e' => simp [bind, Except.bind]
  | ok a => simp [bind, Except.bind]

@[simp] theorem mapError_eq_ok {δ : Type*} {x : Except ε α} {f : ε → δ} {a : α} :
    x.mapError f = .ok a ↔ x = .ok a := by
  cases x <;> simp [Except.mapError]

@[simp] theorem pure_eq_ok {a b : α} : (pure a : Except ε α) = .ok b ↔ a = b :=
  ⟨fun h => Except.ok.inj h, fun h => h ▸ rfl⟩

theorem foldlM_cons_eq_ok {step : σ → α → Except ε σ} {a : α} {l : List α} {s s' : σ} :
    (a :: l).foldlM step s = .ok s' ↔ ∃ t, step s a = .ok t ∧ l.foldlM step t = .ok s' := by
  rw [List.foldlM_cons]
  exact bind_eq_ok

/-- What each step keeps, a run keeps. -/
theorem foldlM_invariant {step : σ → α → Except ε σ} {P : σ → Prop} {l : List α} {s s' : σ}
    (hrun : l.foldlM step s = .ok s') (hs : P s)
    (hstep : ∀ s s' a, a ∈ l → step s a = .ok s' → P s → P s') : P s' := by
  induction l generalizing s with
  | nil =>
    have hss' : s = s' := pure_eq_ok.mp hrun
    exact hss' ▸ hs
  | cons a rest ih =>
    obtain ⟨t, ht, hrest⟩ := foldlM_cons_eq_ok.mp hrun
    have hPt : P t := hstep s t a (List.mem_cons_self ..) ht hs
    exact ih hrest hPt fun s s' b hb => hstep s s' b (List.mem_cons_of_mem a hb)

/-- **A run collects**: what holds after it held before it, or some element added it. It is the
converse of an invariant: it says where a fact about the result has come from. -/
theorem foldlM_collect {step : σ → α → Except ε σ} {P : σ → Prop} {Q : α → Prop}
    (hstep : ∀ s s' a, step s a = .ok s' → (P s' ↔ P s ∨ Q a)) {l : List α} {s s' : σ}
    (hrun : l.foldlM step s = .ok s') : P s' ↔ P s ∨ ∃ a ∈ l, Q a := by
  induction l generalizing s with
  | nil =>
    have hss' : s = s' := pure_eq_ok.mp hrun
    simp [hss']
  | cons a rest ih =>
    obtain ⟨t, ht, hrest⟩ := foldlM_cons_eq_ok.mp hrun
    rw [ih hrest, hstep s t a ht, List.exists_mem_cons_iff, or_assoc]

/-- **A slot holds what the last element that writes it wrote**, or what it held before. -/
theorem foldlM_last {τ : Type*} {step : σ → α → Except ε σ} (slot : σ → τ) (writes : α → Bool)
    {Q : α → τ → Prop}
    (hwrite : ∀ s s' a, step s a = .ok s' → writes a = true → Q a (slot s'))
    (hkeep : ∀ s s' a, step s a = .ok s' → writes a = false → slot s' = slot s)
    {l : List α} {s s' : σ} (hrun : l.foldlM step s = .ok s') :
    match (l.filter writes).getLast? with
    | none => slot s' = slot s
    | some a => Q a (slot s') := by
  induction l generalizing s with
  | nil =>
    obtain rfl := pure_eq_ok.mp hrun
    rfl
  | cons a rest ih =>
    obtain ⟨t, ht, hrest⟩ := foldlM_cons_eq_ok.mp hrun
    have hlast := ih hrest
    cases hwrites : writes a with
    | false =>
      rw [List.filter_cons_of_neg (by rw [hwrites]; exact Bool.false_ne_true)]
      cases hrestLast : (rest.filter writes).getLast? with
      | none =>
        rw [hrestLast] at hlast
        exact hlast.trans (hkeep s t a ht hwrites)
      | some b =>
        rw [hrestLast] at hlast
        exact hlast
    | true =>
      rw [List.filter_cons_of_pos hwrites, List.getLast?_cons]
      cases hrestLast : (rest.filter writes).getLast? with
      | none =>
        rw [hrestLast] at hlast
        simp only at hlast
        simp only [Option.getD_none]
        rw [hlast]
        exact hwrite s t a ht hwrites
      | some b =>
        rw [hrestLast] at hlast
        exact hlast

/-- A loop cannot tell apart two lists whose elements its body cannot tell apart. -/
theorem foldlM_congr {step : σ → α → Except ε σ} {R : α → α → Prop}
    (hstep : ∀ s a b, R a b → step s a = step s b) {l l' : List α} (h : List.Forall₂ R l l')
    (s : σ) : l.foldlM step s = l'.foldlM step s := by
  induction h generalizing s with
  | nil => rfl
  | cons hab _ ih =>
    rw [List.foldlM_cons, List.foldlM_cons, hstep s _ _ hab]
    exact bind_congr ih

/-- **A run has a journal**: what its body computed for each element, in order. What the loop
returns is then a fold over the journal that cannot fail. -/
theorem foldlM_journal {β : Type u} {f : α → Except ε β} {add : σ → β → σ} {l : List α} {s s' : σ}
    (hrun : l.foldlM (fun s a => do pure (add s (← f a))) s = .ok s') :
    ∃ journal : List (α × β), journal.map Prod.fst = l ∧ (∀ e ∈ journal, f e.1 = .ok e.2) ∧
      s' = journal.foldl (fun s e => add s e.2) s := by
  induction l generalizing s with
  | nil =>
    have hss' : s = s' := pure_eq_ok.mp hrun
    exact ⟨[], rfl, by simp, hss'.symm⟩
  | cons a rest ih =>
    obtain ⟨t, ht, hrest⟩ := foldlM_cons_eq_ok.mp hrun
    obtain ⟨b, hb, ht⟩ := bind_eq_ok.mp ht
    obtain rfl := pure_eq_ok.mp ht
    obtain ⟨journal, hfst, hall, hs'⟩ := ih hrest
    refine ⟨(a, b) :: journal, ?_, ?_, hs'⟩
    · rw [List.map_cons, hfst]
    · intro e he
      rcases List.mem_cons.mp he with rfl | he
      · exact hb
      · exact hall e he

/-- A loop whose body computes a value and adds it computes the values first, failure included. -/
theorem foldlM_eq_mapM {β : Type u} {f : α → Except ε β} {add : σ → β → σ} {l : List α} (s : σ) :
    l.foldlM (fun s a => do pure (add s (← f a))) s = (fun ys => ys.foldl add s) <$> l.mapM f := by
  induction l generalizing s with
  | nil => rfl
  | cons a rest ih =>
    rw [List.foldlM_cons, List.mapM_cons]
    cases hfa : f a with
    | error e => rfl
    | ok b =>
      show rest.foldlM (fun s a => do pure (add s (← f a))) (add s b) = _
      rw [ih]
      cases hrest : rest.mapM f <;> rfl

/-- A loop inside a loop is one loop over all the pairs. -/
theorem foldlM_flatMap {β : Type*} {step : σ → β → Except ε σ} {g : α → List β} {l : List α}
    (s : σ) :
    (l.flatMap g).foldlM step s = l.foldlM (fun s a => (g a).foldlM step s) s := by
  induction l generalizing s with
  | nil => rfl
  | cons a rest ih =>
    rw [List.flatMap_cons, List.foldlM_append, List.foldlM_cons]
    exact bind_congr ih

/-! ## `mapM` -/

theorem mapM_cons_eq_ok {β : Type u} {f : α → Except ε β} {a : α} {l : List α} {ys : List β} :
    (a :: l).mapM f = .ok ys ↔ ∃ b rest, f a = .ok b ∧ l.mapM f = .ok rest ∧ ys = b :: rest := by
  rw [List.mapM_cons]
  constructor
  · intro h
    obtain ⟨b, hb, h⟩ := bind_eq_ok.mp h
    obtain ⟨rest, hrest, h⟩ := bind_eq_ok.mp h
    exact ⟨b, rest, hb, hrest, (pure_eq_ok.mp h).symm⟩
  · rintro ⟨b, rest, hb, hrest, rfl⟩
    rw [hb, hrest]
    rfl

theorem length_of_mapM {β : Type u} {f : α → Except ε β} {l : List α} {ys : List β}
    (h : l.mapM f = .ok ys) : ys.length = l.length := by
  induction l generalizing ys with
  | nil =>
    obtain rfl := pure_eq_ok.mp h
    rfl
  | cons a l ih =>
    obtain ⟨b, rest, _, hrest, rfl⟩ := mapM_cons_eq_ok.mp h
    rw [List.length_cons, List.length_cons, ih hrest]

/-- What an element and what it is mapped to agree in, the lists agree in. -/
theorem map_of_mapM {β : Type u} {γ : Type*} {f : α → Except ε β} {g : α → γ} {g' : β → γ}
    {l : List α} {ys : List β} (hf : ∀ a ∈ l, ∀ b, f a = .ok b → g' b = g a)
    (h : l.mapM f = .ok ys) : ys.map g' = l.map g := by
  induction l generalizing ys with
  | nil =>
    rw [← pure_eq_ok.mp h]
    rfl
  | cons a l ih =>
    obtain ⟨b, rest, hb, hrest, rfl⟩ := mapM_cons_eq_ok.mp h
    have hl : ∀ x ∈ l, ∀ b, f x = .ok b → g' b = g x := fun x hx =>
      hf x (List.mem_cons_of_mem a hx)
    rw [List.map_cons, List.map_cons, hf a List.mem_cons_self b hb, ih hl hrest]

/-- Every result is the result of some element. -/
theorem exists_of_mem_mapM {β : Type u} {f : α → Except ε β} {l : List α} {ys : List β}
    (h : l.mapM f = .ok ys) {b : β} (hb : b ∈ ys) : ∃ a ∈ l, f a = .ok b := by
  induction l generalizing ys with
  | nil =>
    rw [← pure_eq_ok.mp h] at hb
    exact absurd hb (by simp)
  | cons a l ih =>
    obtain ⟨c, rest, hc, hrest, rfl⟩ := mapM_cons_eq_ok.mp h
    rcases List.mem_cons.mp hb with rfl | hb
    · exact ⟨a, List.mem_cons_self .., hc⟩
    · obtain ⟨a', ha', hok⟩ := ih hrest hb
      exact ⟨a', List.mem_cons_of_mem a ha', hok⟩

/-- A list of results is there iff every result is. -/
theorem exists_mapM_eq_ok_iff {β : Type u} {f : α → Except ε β} {l : List α} :
    (∃ ys, l.mapM f = .ok ys) ↔ ∀ a ∈ l, ∃ b, f a = .ok b := by
  induction l with
  | nil => exact ⟨fun _ => by simp, fun _ => ⟨[], rfl⟩⟩
  | cons a rest ih =>
    rw [List.forall_mem_cons, ← ih]
    constructor
    · rintro ⟨ys, h⟩
      obtain ⟨b, rest', hb, hrest, rfl⟩ := mapM_cons_eq_ok.mp h
      exact ⟨⟨b, hb⟩, ⟨rest', hrest⟩⟩
    · rintro ⟨⟨b, hb⟩, ⟨rest', hrest⟩⟩
      exact ⟨b :: rest', mapM_cons_eq_ok.mpr ⟨b, rest', hb, hrest, rfl⟩⟩

theorem map_some_of_mapM {β : Type u} {f : α → Except ε β} {l : List α} {ys : List β}
    (h : l.mapM f = .ok ys) : ys.map some = l.map fun a => (f a).toOption := by
  induction l generalizing ys with
  | nil =>
    obtain rfl := pure_eq_ok.mp h
    rfl
  | cons a rest ih =>
    obtain ⟨b, rest', hb, hrest, rfl⟩ := mapM_cons_eq_ok.mp h
    rw [List.map_cons, List.map_cons, ih hrest, hb]
    rfl

theorem eq_map_of_mapM {β : Type u} {f : α → Except ε β} (default : β) {l : List α} {ys : List β}
    (h : l.mapM f = .ok ys) : ys = l.map fun a => (f a).toOption.getD default := by
  have hmap := congrArg (List.map fun o : Option β => o.getD default) (map_some_of_mapM h)
  rw [List.map_map, List.map_map] at hmap
  simpa [Function.comp_def] using hmap

theorem mem_of_mapM {β : Type u} {f : α → Except ε β} {l : List α} {ys : List β}
    (h : l.mapM f = .ok ys) {a : α} {b : β} (ha : a ∈ l) (hb : f a = .ok b) : b ∈ ys := by
  have hmem : some b ∈ ys.map some := by
    rw [map_some_of_mapM h]
    exact List.mem_map.mpr ⟨a, ha, congrArg Except.toOption hb⟩
  obtain ⟨b', hb', heq⟩ := List.mem_map.mp hmem
  exact Option.some.inj heq ▸ hb'

/-- Steps that all return make the list of what they return. -/
theorem mapM_eq_ok_map {β : Type u} {f : α → Except ε β} {g : α → β} {l : List α}
    (h : ∀ a ∈ l, f a = .ok (g a)) : l.mapM f = .ok (l.map g) := by
  induction l with
  | nil => rfl
  | cons a rest ih =>
    have hrest := ih fun b hb => h b (List.mem_cons_of_mem a hb)
    exact mapM_cons_eq_ok.mpr ⟨g a, rest.map g, h a List.mem_cons_self, hrest, rfl⟩

/-- The results of a list in another order are the results in another order. -/
theorem perm_of_mapM {β : Type u} {f : α → Except ε β} {l l' : List α} {ys ys' : List β}
    (hperm : l.Perm l') (h : l.mapM f = .ok ys) (h' : l'.mapM f = .ok ys') : ys.Perm ys' := by
  rw [← List.map_perm_map_iff fun _ _ => Option.some.inj, map_some_of_mapM h, map_some_of_mapM h']
  exact hperm.map _

/-- A result that is known to be one. -/
theorem eq_ok_of_isOk {x : Except ε α} (default : α) (h : x.isOk = true) :
    x = .ok (x.toOption.getD default) := by
  cases x with
  | error e => cases h
  | ok a => rfl

/-! ## An optional step -/

theorem mapM_none_eq_ok {β : Type u} {f : α → Except ε β} {made : Option β} :
    (none : Option α).mapM f = .ok made ↔ made = none := by
  constructor
  · intro h
    exact (pure_eq_ok.mp h).symm
  · rintro rfl
    rfl

theorem mapM_some_eq_ok {β : Type u} {f : α → Except ε β} {a : α} {made : Option β} :
    (some a).mapM f = .ok made ↔ ∃ b, f a = .ok b ∧ made = some b := by
  constructor
  · intro h
    obtain ⟨b, hb, h⟩ := bind_eq_ok.mp h
    exact ⟨b, hb, (pure_eq_ok.mp h).symm⟩
  · rintro ⟨b, hb, rfl⟩
    show (f a >>= fun b => pure (some b)) = _
    rw [hb]
    rfl

/-! ## Returning

Which inputs a computation returns on, without what it returns. A step after another is reached
only with the value the first returned, so its condition is under that value. -/

/-- The computation returns. -/
def Returns (x : Except ε α) : Prop := ∃ a, x = .ok a

theorem returns_ok (a : α) : Returns (.ok a : Except ε α) := ⟨a, rfl⟩

theorem returns_pure (a : α) : Returns (pure a : Except ε α) := ⟨a, rfl⟩

theorem not_returns_error (e : ε) : ¬ Returns (.error e : Except ε α) := by
  rintro ⟨a, ha⟩
  cases ha

theorem not_returns_throw (e : ε) : ¬ Returns (throw e : Except ε α) := not_returns_error e

theorem returns_bind {x : Except ε σ} {f : σ → Except ε τ} :
    Returns (x >>= f) ↔ Returns x ∧ ∀ a, x = .ok a → Returns (f a) := by
  constructor
  · rintro ⟨b, hb⟩
    obtain ⟨a, ha, hf⟩ := bind_eq_ok.mp hb
    refine ⟨⟨a, ha⟩, ?_⟩
    intro a' ha'
    obtain rfl : a = a' := Except.ok.inj (ha.symm.trans ha')
    exact ⟨b, hf⟩
  · rintro ⟨⟨a, ha⟩, hf⟩
    obtain ⟨b, hb⟩ := hf a ha
    exact ⟨b, bind_eq_ok.mpr ⟨a, ha, hb⟩⟩

theorem returns_ite {c : Prop} [Decidable c] {x y : Except ε α} (hx : Returns x) (hy : Returns y) :
    Returns (if c then x else y) := by
  split
  · exact hx
  · exact hy

/-- A step whose return does not depend on the value before it. -/
theorem returns_bind_and {x : Except ε σ} {f : σ → Except ε τ} {P : Prop}
    (h : ∀ a, x = .ok a → (Returns (f a) ↔ P)) : Returns (x >>= f) ↔ Returns x ∧ P := by
  rw [returns_bind]
  constructor
  · rintro ⟨⟨a, ha⟩, hf⟩
    exact ⟨⟨a, ha⟩, (h a ha).mp (hf a ha)⟩
  · rintro ⟨hx, hP⟩
    exact ⟨hx, fun a ha => (h a ha).mpr hP⟩

/-- A last step that cannot fail does not matter. -/
theorem returns_bind_pure {x : Except ε σ} {f : σ → τ} :
    Returns (x >>= fun a => pure (f a)) ↔ Returns x := by
  rw [returns_bind]
  exact ⟨fun h => h.1, fun h => ⟨h, fun a _ => returns_pure (f a)⟩⟩

theorem returns_map {x : Except ε σ} {f : σ → τ} : Returns (f <$> x) ↔ Returns x := by
  rw [← bind_pure_comp]
  exact returns_bind_pure

theorem returns_mapM_iff {β : Type u} {f : α → Except ε β} {l : List α} :
    Returns (l.mapM f) ↔ ∀ a ∈ l, Returns (f a) :=
  exists_mapM_eq_ok_iff

theorem returns_filterMapM_iff {β : Type u} {f : α → Except ε (Option β)} {l : List α} :
    Returns (l.filterMapM f) ↔ ∀ a ∈ l, Returns (f a) := by
  induction l with
  | nil => exact ⟨fun _ => by simp, fun _ => returns_pure []⟩
  | cons a rest ih =>
    rw [List.filterMapM_cons, returns_bind, List.forall_mem_cons, ← ih]
    constructor
    · rintro ⟨ha, hrest⟩
      obtain ⟨made, hmade⟩ := ha
      refine ⟨⟨made, hmade⟩, ?_⟩
      have hreturns := hrest made hmade
      cases made with
      | none => exact hreturns
      | some b => exact returns_bind_pure.mp hreturns
    · rintro ⟨ha, hrest⟩
      refine ⟨ha, ?_⟩
      intro made _
      cases made with
      | none => exact hrest
      | some b => exact returns_bind_pure.mpr hrest

theorem returns_filterM {α ε : Type} {f : α → Except ε Bool} {l : List α}
    (h : ∀ a ∈ l, Returns (f a)) : Returns (l.filterM f) := by
  have haux : ∀ acc, Returns (l.filterAuxM f acc) := by
    induction l with
    | nil => exact fun acc => returns_pure acc
    | cons a rest ih =>
      intro acc
      have hrest := ih fun b hb => h b (List.mem_cons_of_mem a hb)
      exact returns_bind.mpr ⟨h a List.mem_cons_self, fun kept _ => hrest _⟩
  exact returns_bind_pure.mpr (haux [])

theorem returns_mapM_option_iff {β : Type u} {f : α → Except ε β} {a : Option α} :
    Returns (a.mapM f) ↔ ∀ b ∈ a, Returns (f b) := by
  cases a with
  | none => exact ⟨fun _ => by simp, fun _ => returns_pure none⟩
  | some a =>
    have hmap : (some a).mapM f = f a >>= fun b => pure (some b) := rfl
    rw [hmap, returns_bind_pure]
    simp

/-- **A loop returns if and only if each step does**, from what the steps before it leave. -/
theorem returns_foldlM_iff {step : σ → α → Except ε σ} {l : List α} {s : σ} :
    Returns (l.foldlM step s) ↔
      ∀ pre a post t, l = pre ++ a :: post → pre.foldlM step s = .ok t → Returns (step t a) := by
  induction l generalizing s with
  | nil => exact ⟨fun _ => by simp, fun _ => returns_pure s⟩
  | cons first rest ih =>
    rw [List.foldlM_cons, returns_bind]
    constructor
    · rintro ⟨hfirst, hrest⟩ pre a post t hsplit hpre
      cases pre with
      | nil =>
        obtain ⟨rfl, -⟩ := List.cons.inj hsplit
        obtain rfl := pure_eq_ok.mp hpre
        exact hfirst
      | cons b pre =>
        obtain ⟨rfl, htail⟩ := List.cons.inj hsplit
        obtain ⟨s', hs', hpre⟩ := foldlM_cons_eq_ok.mp hpre
        exact ih.mp (hrest s' hs') pre a post t htail hpre
    · intro h
      refine ⟨h [] first rest s rfl rfl, ?_⟩
      intro s' hs'
      rw [ih]
      intro pre a post t hsplit hpre
      refine h (first :: pre) a post t (by rw [hsplit, List.cons_append]) ?_
      exact foldlM_cons_eq_ok.mpr ⟨s', hs', hpre⟩

/-- In a loop that returns, each element has been stepped on. -/
theorem exists_step_of_mem {step : σ → α → Except ε σ} {l : List α} {s s' : σ} {a : α}
    (h : l.foldlM step s = .ok s') (ha : a ∈ l) : ∃ t, Returns (step t a) := by
  obtain ⟨pre, post, rfl⟩ := List.append_of_mem ha
  have hreturns : Returns ((pre ++ a :: post).foldlM step s) := ⟨s', h⟩
  rw [List.foldlM_append] at h
  obtain ⟨t, ht, -⟩ := bind_eq_ok.mp h
  exact ⟨t, returns_foldlM_iff.mp hreturns pre a post t rfl ht⟩

/-- A loop whose steps return or not by what was before them. -/
theorem returns_foldlM_iff_before {step : σ → α → Except ε σ} {P : List α → α → Prop} {l : List α}
    {s : σ} (hstep : ∀ before a after t, l = before ++ a :: after →
      before.foldlM step s = .ok t → (Returns (step t a) ↔ P before a)) :
    Returns (l.foldlM step s) ↔ ∀ before a after, l = before ++ a :: after → P before a := by
  rw [returns_foldlM_iff]
  constructor
  · intro h before a after hsplit
    have hwhole : Returns (l.foldlM step s) := returns_foldlM_iff.mpr h
    rw [hsplit, List.foldlM_append, returns_bind] at hwhole
    obtain ⟨⟨t, ht⟩, -⟩ := hwhole
    exact (hstep before a after t hsplit ht).mp (h before a after t hsplit ht)
  · intro h before a after t hsplit ht
    exact (hstep before a after t hsplit ht).mpr (h before a after hsplit)

/-- A loop whose steps return or not whatever was before them. -/
theorem returns_foldlM_iff_forall {step : σ → α → Except ε σ} {P : α → Prop} {l : List α} {s : σ}
    (hstep : ∀ s, ∀ a ∈ l, Returns (step s a) ↔ P a) :
    Returns (l.foldlM step s) ↔ ∀ a ∈ l, P a := by
  induction l generalizing s with
  | nil => exact ⟨fun _ => by simp, fun _ => returns_pure s⟩
  | cons first rest ih =>
    have hrest : ∀ s, ∀ a ∈ rest, Returns (step s a) ↔ P a :=
      fun s a ha => hstep s a (List.mem_cons_of_mem first ha)
    rw [List.foldlM_cons, returns_bind, hstep s first List.mem_cons_self, List.forall_mem_cons]
    constructor
    · rintro ⟨hfirst, h⟩
      obtain ⟨s', hs'⟩ := (hstep s first List.mem_cons_self).mpr hfirst
      exact ⟨hfirst, (ih hrest).mp (h s' hs')⟩
    · rintro ⟨hfirst, h⟩
      exact ⟨hfirst, fun s' _ => (ih hrest).mpr h⟩

end Fallible
end SecureMail
