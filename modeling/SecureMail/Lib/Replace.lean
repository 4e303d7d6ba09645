import Mathlib.Data.List.Basic
import Mathlib.Data.List.Induction

/-!
# Replacing a file by way of a temporary one

A writer writes the whole content to a temporary file and renames it over the target. The rename is
atomic, so the target always holds the whole content some writer wrote. When several writers share
the name of the temporary file, the rename of one moves what another wrote, and the other finds
nothing to rename.

The accesses of any number of writers come in one trace, each tagged with its writer. Writers that
share a temporary file all succeed exactly when they come one after another
(`run_isSome_iff_sequential`).
-/

namespace SecureMail
namespace Replace

variable {ι α : Type*}

/-- The file, and the temporary file beside it. -/
structure Files (α : Type*) where
  target : α
  temp : Option α := none
deriving DecidableEq

inductive Access (α : Type*)
  | write (content : α)
  | rename
deriving DecidableEq

def Access.isWrite : Access α → Bool
  | .write _ => true
  | .rename => false

@[simp] theorem Access.isWrite_write (content : α) : (Access.write content).isWrite = true := rfl

@[simp] theorem Access.isWrite_rename : (Access.rename : Access α).isWrite = false := rfl

/-- An access; `none` when there is no file to rename. -/
def Access.run (files : Files α) : Access α → Option (Files α)
  | .write content => some { files with temp := some content }
  | .rename => files.temp.map fun content => { target := content }

/-- The accesses of one writer. -/
def replace (content : α) : List (Access α) := [.write content, .rename]

/-- All accesses in turn; `none` when one fails. -/
def run (files : Files α) (trace : List (ι × Access α)) : Option (Files α) :=
  trace.foldlM (fun files access => access.2.run files) files

/-- The files after a trace; an access that fails leaves them as they are. -/
def after (files : Files α) (trace : List (ι × Access α)) : Files α :=
  trace.foldl (fun files access => (access.2.run files).getD files) files

/-- The writers one after another. -/
def sequential (content : ι → α) (order : List ι) : List (ι × Access α) :=
  order.flatMap fun i => (replace (content i)).map (i, ·)

@[simp] theorem run_nil (files : Files α) : run files ([] : List (ι × Access α)) = some files := rfl

theorem run_cons (files : Files α) (access : ι × Access α) (rest : List (ι × Access α)) :
    run files (access :: rest) = (access.2.run files).bind fun files => run files rest := by
  rw [run, List.foldlM_cons]
  rfl

theorem run_write (files : Files α) (i : ι) (content : α) (rest : List (ι × Access α)) :
    run files ((i, .write content) :: rest) = run { files with temp := some content } rest :=
  run_cons _ _ _

/-- A writer that is not interrupted replaces the file. -/
theorem run_replace (files : Files α) (i : ι) (content : α) (rest : List (ι × Access α)) :
    run files ((i, .write content) :: (i, .rename) :: rest) = run { target := content } rest := by
  rw [run_write, run_cons]
  rfl

theorem run_sequential (content : ι → α) (order : List ι) (files : Files α) :
    (run files (sequential content order)).isSome = true := by
  induction order generalizing files with
  | nil => rfl
  | cons i rest ih =>
    show (run files ((i, .write (content i)) :: (i, .rename) :: sequential content rest)).isSome = true
    rw [run_replace]
    exact ih _

theorem after_append (files : Files α) (trace more : List (ι × Access α)) :
    after files (trace ++ more) = after (after files trace) more :=
  List.foldl_append

theorem after_rename (files : Files α) (i : ι) :
    after files [(i, .rename)] =
      match files.temp with
      | some content => { target := content }
      | none => files := by
  show ((files.temp.map fun content => { target := content }).getD files) = _
  cases files.temp with
  | none => rfl
  | some content => rfl

/-! ## Counting -/

/-- Each rename that succeeds uses up the temporary file of a write. -/
theorem countP_rename_le {trace : List (ι × Access α)} :
    ∀ {files : Files α}, (run files trace).isSome = true →
      trace.countP (fun access => !access.2.isWrite) ≤
        (if files.temp.isSome then 1 else 0) + trace.countP fun access => access.2.isWrite := by
  induction trace with
  | nil => simp
  | cons access rest ih =>
    intro files hrun
    obtain ⟨i, access⟩ := access
    cases access with
    | write content =>
      rw [run_write] at hrun
      have hrest := ih hrun
      simp only [Option.isSome_some, if_true] at hrest
      simp only [List.countP_cons, Access.isWrite_write, Bool.not_true, Bool.false_eq_true, if_false,
        if_true]
      omega
    | rename =>
      rw [run_cons] at hrun
      cases htemp : files.temp with
      | none => simp [Access.run, htemp] at hrun
      | some content =>
        simp only [Access.run, htemp, Option.map_some, Option.bind_some] at hrun
        have hrest := ih hrun
        simp only [Option.isSome_none, Bool.false_eq_true, if_false] at hrest
        simp only [List.countP_cons, Access.isWrite_rename, Bool.not_false, Bool.false_eq_true,
          if_false, if_true, Option.isSome_some]
        omega

section

variable [DecidableEq ι] {content : ι → α} {trace : List (ι × Access α)}

/-- The accesses of a writer in a trace. -/
def accessesOf (trace : List (ι × Access α)) (i : ι) : List (Access α) :=
  (trace.filter (·.1 = i)).map Prod.snd

/-- An order of the accesses of some writers: each makes its two in turn. -/
def Interleaves (content : ι → α) (trace : List (ι × Access α)) : Prop :=
  ∀ i, accessesOf trace i = [] ∨ accessesOf trace i = replace (content i)

theorem accessesOf_cons_self (i : ι) (access : Access α) (rest : List (ι × Access α)) :
    accessesOf ((i, access) :: rest) i = access :: accessesOf rest i := by
  simp [accessesOf]

theorem accessesOf_cons_of_ne {i j : ι} (h : j ≠ i) (access : Access α)
    (rest : List (ι × Access α)) : accessesOf ((j, access) :: rest) i = accessesOf rest i := by
  simp [accessesOf, h]

/-- What is in a trace is written by its writer. -/
theorem Interleaves.content_eq (h : Interleaves content trace) {i : ι} {a : α}
    (hmem : (i, Access.write a) ∈ trace) : a = content i := by
  have hown : Access.write a ∈ accessesOf trace i :=
    List.mem_map.mpr ⟨(i, .write a), List.mem_filter.mpr ⟨hmem, by simp⟩, rfl⟩
  rcases h i with hnone | hreplace
  · rw [hnone] at hown
    cases hown
  · rw [hreplace] at hown
    simpa [replace] using hown

/-- The first access is a write, and the others interleave after it. -/
theorem Interleaves.first (h : Interleaves content trace) {i : ι} {access : Access α}
    {rest : List (ι × Access α)} (htrace : trace = (i, access) :: rest) :
    access = .write (content i) ∧ accessesOf rest i = [.rename] := by
  rcases h i with hnone | hreplace
  · rw [htrace, accessesOf_cons_self] at hnone
    cases hnone
  · rw [htrace, accessesOf_cons_self] at hreplace
    exact List.cons.inj hreplace

/-- As many renames as writes. -/
theorem Interleaves.countP_eq (h : Interleaves content trace) :
    (trace.countP fun access => access.2.isWrite) = trace.countP fun access => !access.2.isWrite := by
  -- One writer is taken out at a time.
  induction hlength : trace.length using Nat.strongRecOn generalizing trace with
  | ind length ih =>
  cases trace with
  | nil => rfl
  | cons access rest =>
    obtain ⟨i, access⟩ := access
    let trace := (i, access) :: rest
    have hothers : Interleaves content (trace.filter fun a => !decide (a.1 = i)) := by
      intro j
      by_cases hj : j = i
      · left
        simp only [accessesOf, List.filter_filter, List.map_eq_nil_iff, List.filter_eq_nil_iff]
        rintro ⟨k, a⟩ - hk
        simp [hj] at hk
      · have hsame : accessesOf (trace.filter fun a => !decide (a.1 = i)) j = accessesOf trace j := by
          rw [accessesOf, accessesOf, List.filter_filter]
          congr 1
          refine List.filter_congr fun a _ => ?_
          by_cases ha : a.1 = j
          · simp [ha, hj]
          · simp [ha]
        rw [hsame]
        exact h j
    have hshorter : (trace.filter fun a => !decide (a.1 = i)).length < length := by
      rw [← hlength]
      refine Nat.lt_of_le_of_ne (List.length_filter_le _ _) ?_
      intro hall
      have hmem := List.filter_eq_self.mp (List.filter_sublist.eq_of_length hall) (i, access)
        List.mem_cons_self
      simp at hmem
    have hown : accessesOf trace i = replace (content i) := by
      rcases h i with hnone | hreplace
      · rw [accessesOf_cons_self] at hnone
        cases hnone
      · exact hreplace
    have hcount : ∀ p : Access α → Bool, trace.countP (fun a => p a.2) =
        (replace (content i)).countP p +
          (trace.filter fun a => !decide (a.1 = i)).countP fun a => p a.2 := by
      intro p
      rw [List.countP_eq_countP_filter_add trace (fun a => p a.2) fun a => decide (a.1 = i), ← hown,
        accessesOf, List.countP_map]
      rfl
    have hrest := ih _ hshorter hothers rfl
    show trace.countP (fun a => a.2.isWrite) = trace.countP fun a => !a.2.isWrite
    rw [hcount Access.isWrite, hcount fun a => !a.isWrite, hrest]
    rfl

/-- Without its first writer, who is done, a trace still interleaves. -/
theorem Interleaves.tail {i : ι} {rest : List (ι × Access α)}
    (h : Interleaves content ((i, .write (content i)) :: (i, .rename) :: rest)) :
    Interleaves content rest := by
  intro j
  by_cases hj : j = i
  · subst hj
    have hown := (h.first rfl).2
    rw [accessesOf_cons_self] at hown
    exact Or.inl (List.cons.inj hown).2
  · have hsame := h j
    rw [accessesOf_cons_of_ne (Ne.symm hj), accessesOf_cons_of_ne (Ne.symm hj)] at hsame
    exact hsame

/-- **Writers that all succeed come one after another.** A writer that finds its temporary file gone
fails, and so no two of them can overlap. -/
theorem sequential_of_run (h : Interleaves content trace) {files : Files α}
    (hrun : (run files trace).isSome = true) : ∃ order, trace = sequential content order := by
  induction hlength : trace.length using Nat.strongRecOn generalizing trace files with
  | ind length ih =>
  cases trace with
  | nil => exact ⟨[], rfl⟩
  | cons first rest =>
    obtain ⟨i, access⟩ := first
    obtain ⟨rfl, hown⟩ := h.first rfl
    cases rest with
    | nil => cases hown
    | cons second rest =>
      obtain ⟨j, access⟩ := second
      cases access with
      | write a =>
        -- Two writes in a row leave one temporary file for two renames.
        have hbalance := h.countP_eq
        rw [run_write, run_write] at hrun
        have hrenames := countP_rename_le hrun
        simp only [List.countP_cons, Access.isWrite_write, Bool.not_true, Bool.false_eq_true, if_false,
          if_true] at hbalance
        simp only [Option.isSome_some, if_true] at hrenames
        omega
      | rename =>
        have hji : j = i := by
          by_contra hne
          rcases h j with hnone | hreplace
          · rw [accessesOf_cons_of_ne (Ne.symm hne), accessesOf_cons_self] at hnone
            cases hnone
          · rw [accessesOf_cons_of_ne (Ne.symm hne), accessesOf_cons_self] at hreplace
            cases (List.cons.inj hreplace).1
        subst hji
        rw [run_replace] at hrun
        obtain ⟨order, horder⟩ := ih rest.length (by simp at hlength; omega) h.tail hrun rfl
        exact ⟨j :: order, by rw [horder]; rfl⟩

/-- **All writers succeed exactly when they come one after another.** The right side is about the
order of their accesses and not about any content. -/
theorem run_isSome_iff_sequential (h : Interleaves content trace) (files : Files α) :
    (run files trace).isSome = true ↔ ∃ order, trace = sequential content order := by
  constructor
  · exact sequential_of_run h
  · rintro ⟨order, rfl⟩
    exact run_sequential content order files

/-! ## The content -/

/-- **The file is whole at every moment**: it is as it was, or as some writer wrote it. -/
theorem target_after (h : Interleaves content trace) (files : Files α)
    {pre : List (ι × Access α)} (hpre : pre <+: trace) :
    (after files pre).target = files.target ∨ ∃ i, (after files pre).target = content i := by
  have hinv : pre = [] ∨
      ((after files pre).target = files.target ∨ ∃ i, (after files pre).target = content i) ∧
        ∀ a, (after files pre).temp = some a → ∃ i, a = content i := by
    induction pre using List.reverseRecOn with
    | nil => exact Or.inl rfl
    | append_singleton pre access ih =>
      right
      have hmem : access ∈ trace := hpre.subset (by simp)
      have hbefore := ih ((List.prefix_append pre [access]).trans hpre)
      obtain ⟨i, access⟩ := access
      rw [after_append]
      cases access with
      | write a =>
        obtain rfl := h.content_eq hmem
        refine ⟨?_, ?_⟩
        · rcases hbefore with rfl | ⟨htarget, -⟩
          · exact Or.inl rfl
          · exact htarget
        · rintro b hb
          exact ⟨i, (Option.some.inj hb).symm⟩
      | rename =>
        rcases hbefore with rfl | ⟨htarget, htemp⟩
        · obtain ⟨rest, hrest⟩ := hpre
          obtain ⟨hwrite, -⟩ := h.first hrest.symm
          cases hwrite
        · rw [after_rename]
          cases hcontent : (after files pre).temp with
          | none => exact ⟨htarget, by simp [hcontent]⟩
          | some a =>
            obtain ⟨j, rfl⟩ := htemp a hcontent
            exact ⟨Or.inr ⟨j, rfl⟩, by simp⟩
  rcases hinv with rfl | ⟨htarget, -⟩
  · exact Or.inl rfl
  · exact htarget

end

end Replace
end SecureMail
