import Mathlib.Data.List.Basic

/-!
# The job directory

An analysis run is a directory of its own with the record `status.json` and, once somebody asked
for it, the file `cancel.flag`. Nothing locks either. `update_job` reads the record, may write the
flag, and writes a changed copy of *what it read*, so three accesses of the directory lie between
its call and its return and another process can come in between any two.

The function is given twice. `updateJob` is what the code computes when nobody comes in between, and
`UpdateStep` the same in accesses, with the copy that is carried from one to the next as part of the
progress of the call; `AtomicUpdate.steps` says that the second, uninterrupted, is the first. A
system takes either as a parameter, so that one can say of a defect which of the two it needs.

The record has the fields that the store and the worker look at. `updated_at` is left out with the
fields that say which capture the run is about.
-/

namespace SecureMail
namespace Jobs

inductive AnalysisStatus
  | queued | running | completed | failed | cancelled
deriving DecidableEq, Repr

inductive AnalysisStage
  | intake | deterministicAnalysis | policyScoring | mlAdvisory | reportRendering | publication
deriving DecidableEq, Repr

structure ArtifactAvailability where
  canonical : Bool := false
  html : Bool := false
  pdf : Bool := false
deriving DecidableEq, Repr

/-- `status.json`. The fields that never change after the intake are kept elsewhere, and no update
mentions them. -/
structure AnalysisJob where
  status : AnalysisStatus
  stage : AnalysisStage
  errorMessage : Option String := none
  artifacts : ArtifactAvailability := {}
  cancelRequested : Bool := false
deriving DecidableEq, Repr

def AnalysisStatus.isTerminal : AnalysisStatus → Bool
  | .completed | .failed | .cancelled => true
  | .queued | .running => false

def AnalysisJob.isTerminal (job : AnalysisJob) : Bool := job.status.isTerminal

/-- The keyword arguments of `update_job`; what is `none` is not changed. -/
structure JobUpdate where
  status : Option AnalysisStatus := none
  stage : Option AnalysisStage := none
  errorMessage : Option String := none
  artifacts : Option ArtifactAvailability := none
  cancelRequested : Option Bool := none
deriving DecidableEq, Repr

/-- The run's directory: the record, and whether `cancel.flag` is there. -/
structure JobDir where
  job : AnalysisJob
  cancelFlag : Bool := false
deriving DecidableEq, Repr

/-- `JobConflictError`. -/
inductive JobConflictError
  | alreadyTerminal
deriving DecidableEq, Repr

def JobConflictError.text : JobConflictError → String
  | .alreadyTerminal => "analysis run is already terminal"

namespace JobUpdate

/-- The guard of `update_job`: a terminal record takes no new status. It takes any other change, a mark
to cancel among them. The record it is put to is the one that was read. -/
def refuses (u : JobUpdate) (current : AnalysisJob) : Bool := u.status.isSome && current.isTerminal

/-- `current.model_copy(update=updates)`. A field that is not asked for keeps the value it had in
the copy, whatever the record says by then. -/
def patch (u : JobUpdate) (current : AnalysisJob) : AnalysisJob where
  status := u.status.getD current.status
  stage := u.stage.getD current.stage
  errorMessage := u.errorMessage.or current.errorMessage
  artifacts := u.artifacts.getD current.artifacts
  cancelRequested := u.cancelRequested.getD current.cancelRequested

/-- `cancel.flag` is written for True, removed for False and otherwise left alone. -/
def flag (u : JobUpdate) (present : Bool) : Bool := u.cancelRequested.getD present

/-- The update sets a status of its own and that status is terminal. -/
def endsRun (u : JobUpdate) : Bool := u.status.any AnalysisStatus.isTerminal

end JobUpdate

namespace JobDir

/-- `update_job`, as it runs when nobody comes in between. -/
def updateJob (u : JobUpdate) (dir : JobDir) : Except JobConflictError JobDir :=
  if u.refuses dir.job then .error .alreadyTerminal
  else .ok { job := u.patch dir.job, cancelFlag := u.flag dir.cancelFlag }

/-- `is_cancel_requested`. -/
def isCancelRequested (dir : JobDir) : Bool := dir.job.cancelRequested || dir.cancelFlag

end JobDir

/-- The update a `request_cancel` makes that read this record. -/
def cancelUpdate (current : AnalysisJob) : JobUpdate :=
  if current.status = .queued then { status := some .cancelled, cancelRequested := some true }
  else { cancelRequested := some true }

/-- `request_cancel`, as it runs when nobody comes in between. -/
def JobDir.requestCancel (dir : JobDir) : Except JobConflictError JobDir :=
  if dir.job.isTerminal then .error .alreadyTerminal else dir.updateJob (cancelUpdate dir.job)

/-! ## `update_job` step by step -/

/-- How far a call of `update_job` has come: called, the record read and let through, the flag
written, the record written, or the call refused. -/
inductive UpdateProgress
  | called
  | loaded (current : AnalysisJob)
  | flagged (current : AnalysisJob)
  | done
  | refused (error : JobConflictError)
deriving DecidableEq, Repr

/-- What a step of `update_job` does to the directory. -/
inductive UpdateEvent
  | read
  | flag
  | write (job : AnalysisJob)
  | conflict
deriving DecidableEq, Repr

/-- The accesses of `update_job`, each atomic. The guard is on the copy that was read, the flag is
set apart from the record, and the copy is written back as a whole; other parties may come in
between any two of them. -/
inductive UpdateStep (u : JobUpdate) :
    JobDir → UpdateProgress → UpdateEvent → JobDir → UpdateProgress → Prop
  | read {dir : JobDir} : u.refuses dir.job = false →
      UpdateStep u dir .called .read dir (.loaded dir.job)
  | conflict {dir : JobDir} : u.refuses dir.job = true →
      UpdateStep u dir .called .conflict dir (.refused .alreadyTerminal)
  | flag {dir : JobDir} {current : AnalysisJob} :
      UpdateStep u dir (.loaded current) .flag { dir with cancelFlag := u.flag dir.cancelFlag }
        (.flagged current)
  | write {dir : JobDir} {current : AnalysisJob} :
      UpdateStep u dir (.flagged current) (.write (u.patch current))
        { dir with job := u.patch current } .done

/-- `update_job` as one step. It is the update as a caller would like to have it, and as a run has
it when nobody comes in between. -/
inductive AtomicUpdate (u : JobUpdate) :
    JobDir → UpdateProgress → UpdateEvent → JobDir → UpdateProgress → Prop
  | applied {dir dir' : JobDir} : dir.updateJob u = .ok dir' →
      AtomicUpdate u dir .called (.write dir'.job) dir' .done
  | conflict {dir : JobDir} {error : JobConflictError} : dir.updateJob u = .error error →
      AtomicUpdate u dir .called .conflict dir (.refused error)

namespace JobUpdate

variable {u : JobUpdate} {current : AnalysisJob}

@[simp] theorem refuses_of_status_none (h : u.status = none) : u.refuses current = false := by
  simp [refuses, h]

theorem refuses_eq_false_iff :
    u.refuses current = false ↔ u.status = none ∨ current.isTerminal = false := by
  unfold refuses
  cases u.status <;> simp

theorem refuses_eq_true_iff :
    u.refuses current = true ↔ u.status ≠ none ∧ current.isTerminal = true := by
  unfold refuses
  cases u.status <;> simp

@[simp] theorem patch_status : (u.patch current).status = u.status.getD current.status := rfl

@[simp] theorem patch_cancelRequested :
    (u.patch current).cancelRequested = u.cancelRequested.getD current.cancelRequested := rfl

/-- An update that does not set QUEUED leaves a record queued only if it sets no status. -/
theorem patch_status_eq_queued (hu : u.status ≠ some .queued)
    (h : (u.patch current).status = .queued) : u.status = none ∧ current.status = .queued := by
  rw [patch_status] at h
  cases hstatus : u.status with
  | none => exact ⟨rfl, by simpa [hstatus] using h⟩
  | some status =>
    rw [hstatus] at h hu
    exact absurd (congrArg some h) hu

/-- The copy is terminal if the update ends the run, or leaves the status and the original was. -/
theorem isTerminal_patch :
    (u.patch current).isTerminal =
      (u.endsRun || u.status.isNone && current.isTerminal) := by
  unfold AnalysisJob.isTerminal endsRun
  rw [patch_status]
  cases u.status <;> simp

end JobUpdate

namespace JobDir

variable {u : JobUpdate} {dir dir' : JobDir}

theorem updateJob_eq_ok_iff : dir.updateJob u = .ok dir' ↔
    u.refuses dir.job = false ∧
      dir' = { job := u.patch dir.job, cancelFlag := u.flag dir.cancelFlag } := by
  unfold updateJob
  by_cases h : u.refuses dir.job = true
  · simp [h]
  · simp [h, eq_comm]

theorem updateJob_eq_error_iff {error : JobConflictError} :
    dir.updateJob u = .error error ↔ u.refuses dir.job = true := by
  unfold updateJob
  cases error
  by_cases h : u.refuses dir.job = true <;> simp [h]

/-- A terminal record stays terminal under every update that is not interrupted. -/
theorem isTerminal_updateJob (h : dir.updateJob u = .ok dir') (hterminal : dir.job.isTerminal = true) :
    dir'.job.isTerminal = true := by
  obtain ⟨hguard, rfl⟩ := updateJob_eq_ok_iff.mp h
  have hnone : u.status = none := by
    rcases JobUpdate.refuses_eq_false_iff.mp hguard with hnone | hnot
    · exact hnone
    · rw [hterminal] at hnot
      exact absurd hnot (by decide)
  rw [JobUpdate.isTerminal_patch, hnone, hterminal]
  simp

end JobDir

/-- A call of `update_job` whose accesses nobody interrupts is the whole `update_job`. -/
theorem AtomicUpdate.steps {u : JobUpdate} {dir dir' : JobDir}
    (h : dir.updateJob u = .ok dir') :
    ∃ dir₁, UpdateStep u dir .called .read dir (.loaded dir.job) ∧
      UpdateStep u dir (.loaded dir.job) .flag dir₁ (.flagged dir.job) ∧
      UpdateStep u dir₁ (.flagged dir.job) (.write dir'.job) dir' .done := by
  obtain ⟨hguard, rfl⟩ := JobDir.updateJob_eq_ok_iff.mp h
  exact ⟨_, .read hguard, .flag, .write⟩

end Jobs
end SecureMail
