import SecureMail.Jobs.Store
import SecureMail.Lib.Replace

/-!
# `_write_status`

The last step of `update_job` is two accesses: the record goes to `.status.json.tmp`, and that file
is renamed to `status.json`. Every process that updates a job uses the same temporary name. What
others read is a whole record at any time; but of two updates whose accesses overlap, one moves the
record of the other, and the rename of the other finds no file.

That is a fact about replacing a file by way of one temporary name, and about nothing of a job. It
is proved in the library for any contents and any number of writers, where the accesses of a run are
a list and the updates do not overlap exactly when the list is their accesses one after another.
Here the contents are records, and the two writers of the example the worker and a request.
-/

namespace SecureMail
namespace Jobs

open Replace

/-- `status.json` and `.status.json.tmp`. -/
abbrev StatusFiles := Files AnalysisJob

/-- `_write_status`. -/
def writeStatus (job : AnalysisJob) : List (Access AnalysisJob) := replace job

/-- Uninterrupted, `_write_status` is the last step of `update_job`. -/
theorem run_writeStatus {ι : Type*} (i : ι) {u : JobUpdate} {dir dir' : JobDir}
    {current job : AnalysisJob} (h : UpdateStep u dir (.flagged current) (.write job) dir' .done)
    (temp : Option AnalysisJob) :
    run ⟨dir.job, temp⟩ ((writeStatus job).map (i, ·)) = some ⟨dir'.job, none⟩ := by
  cases h with
  | write => exact run_replace _ i _ []

section

variable {ι : Type*} [DecidableEq ι]

/-- No update raises, and at every moment `status.json` is the record that was there or the whole
record of one of them. The second holds of every interleaving; it is kept in the definition because
it is what the temporary file is there for. -/
def UpdatesSafe (record : ι → AnalysisJob) (files : StatusFiles)
    (trace : List (ι × Access AnalysisJob)) : Prop :=
  (run files trace).isSome = true ∧
    ∀ pre, pre <+: trace →
      (after files pre).target = files.target ∨ ∃ i, (after files pre).target = record i

/-- The updates come one after another. It is a condition on the order of the accesses alone; what
they write does not come into it. -/
def OneAfterAnother (record : ι → AnalysisJob) (trace : List (ι × Access AnalysisJob)) : Prop :=
  ∃ order : List ι, trace = order.flatMap fun i => (writeStatus (record i)).map (i, ·)

/-- **Concurrent updates are safe exactly when they do not overlap.** The record is whole in any
case; what an overlap breaks is the rename. -/
theorem concurrent_updates_safe_iff (record : ι → AnalysisJob) (files : StatusFiles)
    (trace : List (ι × Access AnalysisJob)) (h : Interleaves record trace) :
    UpdatesSafe record files trace ↔ OneAfterAnother record trace := by
  have hwhole : ∀ pre, pre <+: trace →
      (after files pre).target = files.target ∨ ∃ i, (after files pre).target = record i :=
    fun _ hpre => target_after h files hpre
  have hsucceed := run_isSome_iff_sequential h files
  exact ⟨fun hsafe => hsucceed.mp hsafe.1, fun hsequential => ⟨hsucceed.mpr hsequential, hwhole⟩⟩

end

/-! ## The worker and a request -/

inductive Updater
  | worker | request
deriving DecidableEq

/-- The worker enters its first stage while a request asks to cancel. -/
def stageAndCancel : Updater → AnalysisJob
  | .worker => ({ stage := some .deterministicAnalysis } : JobUpdate).patch ⟨.running, .intake, none, {}, false⟩
  | .request => ({ cancelRequested := some true } : JobUpdate).patch ⟨.running, .intake, none, {}, false⟩

/-- The accesses of the two in this order. -/
def twoUpdates (order : List (Updater × Bool)) : List (Updater × Access AnalysisJob) :=
  order.map fun (i, renames) => (i, if renames then .rename else .write (stageAndCancel i))

/-- The request writes after the worker has, and before the worker renames. -/
def overlapping : List (Updater × Access AnalysisJob) :=
  twoUpdates [(.worker, false), (.request, false), (.worker, true), (.request, true)]

def inTurn : List (Updater × Access AnalysisJob) :=
  twoUpdates [(.worker, false), (.worker, true), (.request, false), (.request, true)]

theorem interleaves_inTurn : Interleaves stageAndCancel inTurn := by
  intro i
  cases i <;> exact Or.inr (by decide)

theorem updates_in_turn_safe :
    UpdatesSafe stageAndCancel ⟨⟨.running, .intake, none, {}, false⟩, none⟩ inTurn ↔
      OneAfterAnother stageAndCancel inTurn :=
  concurrent_updates_safe_iff stageAndCancel ⟨⟨.running, .intake, none, {}, false⟩, none⟩ inTurn
    interleaves_inTurn

/-- The second rename finds no file, and `status.json` holds what the other update wrote. -/
theorem overlapping_updates_raise :
    Interleaves stageAndCancel overlapping ∧
      ¬ UpdatesSafe stageAndCancel ⟨⟨.running, .intake, none, {}, false⟩, none⟩ overlapping := by
  refine ⟨?_, ?_⟩
  · intro i
    cases i <;> exact Or.inr (by decide)
  · rintro ⟨hsucceed, -⟩
    exact absurd hsucceed (by decide)

end Jobs
end SecureMail
