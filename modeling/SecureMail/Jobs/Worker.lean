import Mathlib.Logic.Function.Basic
import SecureMail.Jobs.Store
import SecureMail.Lib.Transition
import SecureMail.Py.Str

/-!
# The worker and the requests to cancel

One worker and any number of `request_cancel` calls share the directory of one run. The worker's
side is `claim_next` and then `execute_capture_job`, whose body is a straight line of checks,
status updates and calls that may raise (`executeStages`). Every party is a small program that
makes one access at a time; which party moves next is up to the system.

The system is stated for any way to carry out `update_job`, as three accesses (`UpdateStep`) or as
one (`AtomicUpdate`). An exception of any call of the body is allowed at any point of it. Other
runs in the same store are seen only as a pass of `claim_next` that this run takes no part in.

The body is data, a list of statements, and not a step relation with a constructor for each line.
What the worker still has to do is then a list as well, and "a check comes before the publication"
is a function of it that can be evaluated. The calls of the body are names without effect here; what
they write is added by the modules that are about it, over the same trace.
-/

namespace SecureMail
namespace Jobs

open Transition

/-! ## The body of `execute_capture_job` -/

/-- The calls `_execute_stages` makes besides those that read or write the record. -/
inductive Call
  | capturePath | policyProfile | analyze
  | assembleReport
  | loadWindows | attachAdvisories | appendWindows
  | renderReport | writeReportJson | writeReportHtml | writeReportPdf
  | publishReport
deriving DecidableEq, Repr

inductive Instr
  /-- `if _cancelled(job_store, run_id): return _mark_cancelled(job_store, run_id)` -/
  | check
  | update (u : JobUpdate)
  | call (c : Call)
deriving DecidableEq, Repr

def stageUpdate (stage : AnalysisStage) : Instr := .update { stage := some stage }

/-- The last statement of the body. -/
def completedUpdate : JobUpdate where
  status := some .completed
  stage := some .publication
  artifacts := some { canonical := true, html := true, pdf := true }

/-- `_mark_cancelled`; the `error_message=None` it passes changes nothing. -/
def cancelledUpdate : JobUpdate := { status := some .cancelled }

/-- `_execute_stages`. It is a straight line: the only branching is at a check, which jumps out for
good. -/
def executeStages : List Instr :=
  [.check,
   stageUpdate .deterministicAnalysis,
   .call .capturePath, .call .policyProfile, .call .analyze,
   .check,
   stageUpdate .policyScoring,
   .call .assembleReport,
   .check,
   stageUpdate .mlAdvisory,
   .call .loadWindows, .call .attachAdvisories, .call .appendWindows,
   .check,
   stageUpdate .reportRendering,
   .call .renderReport,
   .call .writeReportJson, .call .writeReportHtml, .call .writeReportPdf,
   .check,
   stageUpdate .publication,
   .call .publishReport,
   .update completedUpdate]

/-- An exception that reaches the handler of `execute_capture_job`. -/
structure Raised where
  text : String
  className : String
deriving DecidableEq, Repr

/-- `str(exc) or type(exc).__name__` -/
def Raised.message (exc : Raised) : String := if exc.text = "" then exc.className else exc.text

/-- `_fail`. -/
def failUpdate (exc : Raised) : JobUpdate where
  status := some .failed
  errorMessage := some (Py.takeChars 1000 exc.message)

/-- The same for the conflict an update of the body ran into. -/
def JobConflictError.raised (error : JobConflictError) : Raised :=
  ⟨error.text, "JobConflictError"⟩

/-! ## The parties -/

/-- Who waits for a call of `update_job` of the worker: the first or the second pass of
`claim_next`, the body with the rest of its statements, or the handler. -/
inductive Caller
  | claimNext
  | sweep
  | stages (rest : List Instr)
  | fail
deriving DecidableEq, Repr

inductive Worker
  /-- `claim_next` is about to list the queue. -/
  | polling
  /-- It is about to list it again, for the runs to mark as cancelled. -/
  | sweeping
  /-- `execute_capture_job` was called. -/
  | claimed
  | stages (rest : List Instr)
  /-- A check has read the record, and is yet to look for the flag. -/
  | checking (rest : List Instr)
  | updating (caller : Caller) (u : JobUpdate) (progress : UpdateProgress)
  /-- `execute_capture_job` returned. -/
  | returned
  /-- A `JobConflictError` went up into the worker loop. -/
  | escaped (error : JobConflictError)
deriving DecidableEq, Repr

/-- Where the worker is after a step of a call of `update_job`. -/
def Caller.next (caller : Caller) (u : JobUpdate) : UpdateProgress → Worker
  | .done =>
    match caller with
    | .claimNext => .claimed
    | .sweep => .polling
    | .stages rest => .stages rest
    | .fail => .returned
  | .refused error =>
    match caller with
    | .claimNext => .sweeping
    | .sweep => .escaped error
    | .stages _ => .updating .fail (failUpdate error.raised) .called
    | .fail => .escaped error
  | progress => .updating caller u progress

/-- The worker is inside the `try` of `execute_capture_job`. -/
def Worker.inTry : Worker → Bool
  | .stages (_ :: _) | .checking _ | .updating (.stages _) _ _ => true
  | _ => false

inductive CancelCall
  | idle
  | updating (u : JobUpdate) (progress : UpdateProgress)
  | returned
  | refused (error : JobConflictError)
deriving DecidableEq, Repr

def CancelCall.next (u : JobUpdate) : UpdateProgress → CancelCall
  | .done => .returned
  | .refused error => .refused error
  | progress => .updating u progress

inductive Event
  | otherRun
  | listJobs
  | getJob
  | readFlag
  | callUpdate
  | update (e : UpdateEvent)
  | call (c : Call)
  | callRaised (c : Call) (exc : Raised)
  | raised (exc : Raised)
  | returned
deriving DecidableEq, Repr

/-- A way to carry out `update_job`: how a call of it goes on, and what that does to the directory. -/
abbrev UpdateRelation :=
  JobUpdate → JobDir → UpdateProgress → UpdateEvent → JobDir → UpdateProgress → Prop

/-- Whether the first pass of `claim_next` takes the run. -/
def JobDir.claimable (dir : JobDir) : Bool :=
  dir.job.status == .queued && !dir.job.cancelRequested

/-- Whether the second pass takes it. -/
def JobDir.sweepable (dir : JobDir) : Bool :=
  dir.job.status == .queued && dir.job.cancelRequested

inductive WorkerStep (upd : UpdateRelation) : JobDir → Worker → Event → JobDir → Worker → Prop
  -- `claim_next`: an older run of the queue may be claimed before this one is tried.
  | otherRun {dir : JobDir} {worker : Worker} : worker = .polling ∨ worker = .sweeping →
      WorkerStep upd dir worker .otherRun dir .polling
  | select {dir : JobDir} : dir.claimable = true →
      WorkerStep upd dir .polling .listJobs dir
        (.updating .claimNext { status := some .running } .called)
  | passOver {dir : JobDir} : dir.claimable = false →
      WorkerStep upd dir .polling .listJobs dir .sweeping
  | sweep {dir : JobDir} : dir.sweepable = true →
      WorkerStep upd dir .sweeping .listJobs dir (.updating .sweep cancelledUpdate .called)
  | sweepOver {dir : JobDir} : dir.sweepable = false →
      WorkerStep upd dir .sweeping .listJobs dir .polling
  -- `execute_capture_job`
  | start {dir : JobDir} : dir.job.status = .running →
      WorkerStep upd dir .claimed .getJob dir (.stages executeStages)
  | notRunning {dir : JobDir} : dir.job.status ≠ .running →
      WorkerStep upd dir .claimed .getJob dir .returned
  | recordCancelled {dir : JobDir} {rest : List Instr} : dir.job.cancelRequested = true →
      WorkerStep upd dir (.stages (.check :: rest)) .getJob dir (.stages [.update cancelledUpdate])
  | recordClear {dir : JobDir} {rest : List Instr} : dir.job.cancelRequested = false →
      WorkerStep upd dir (.stages (.check :: rest)) .getJob dir (.checking rest)
  | flagThere {dir : JobDir} {rest : List Instr} : dir.cancelFlag = true →
      WorkerStep upd dir (.checking rest) .readFlag dir (.stages [.update cancelledUpdate])
  | flagAbsent {dir : JobDir} {rest : List Instr} : dir.cancelFlag = false →
      WorkerStep upd dir (.checking rest) .readFlag dir (.stages rest)
  | callUpdate {dir : JobDir} {u : JobUpdate} {rest : List Instr} :
      WorkerStep upd dir (.stages (.update u :: rest)) .callUpdate dir
        (.updating (.stages rest) u .called)
  | call {dir : JobDir} {c : Call} {rest : List Instr} :
      WorkerStep upd dir (.stages (.call c :: rest)) (.call c) dir (.stages rest)
  | callRaised {dir : JobDir} {c : Call} {exc : Raised} {rest : List Instr} :
      WorkerStep upd dir (.stages (.call c :: rest)) (.callRaised c exc) dir
        (.updating .fail (failUpdate exc) .called)
  | raised {dir : JobDir} {worker : Worker} {exc : Raised} : worker.inTry = true →
      WorkerStep upd dir worker (.raised exc) dir (.updating .fail (failUpdate exc) .called)
  | stagesDone {dir : JobDir} : WorkerStep upd dir (.stages []) .returned dir .returned
  -- any of the calls of `update_job`
  | update {dir dir' : JobDir} {caller : Caller} {u : JobUpdate} {p p' : UpdateProgress}
      {e : UpdateEvent} :
      upd u dir p e dir' p' →
      WorkerStep upd dir (.updating caller u p) (.update e) dir' (caller.next u p')

/-- `request_cancel`: a read of the record, then a call of `update_job`. -/
inductive CancelStep (upd : UpdateRelation) : JobDir → CancelCall → Event → JobDir → CancelCall → Prop
  | refused {dir : JobDir} : dir.job.isTerminal = true →
      CancelStep upd dir .idle .getJob dir (.refused .alreadyTerminal)
  | load {dir : JobDir} : dir.job.isTerminal = false →
      CancelStep upd dir .idle .getJob dir (.updating (cancelUpdate dir.job) .called)
  | update {dir dir' : JobDir} {u : JobUpdate} {p p' : UpdateProgress} {e : UpdateEvent} :
      upd u dir p e dir' p' →
      CancelStep upd dir (.updating u p) (.update e) dir' (.next u p')

/-! ## The system -/

structure System (ι : Type*) where
  dir : JobDir
  worker : Worker
  cancels : ι → CancelCall

inductive Party (ι : Type*)
  | worker
  | cancel (i : ι)
deriving DecidableEq

structure Action (ι : Type*) where
  party : Party ι
  event : Event
deriving DecidableEq

variable {ι : Type*} [DecidableEq ι]

inductive Step (upd : UpdateRelation) : System ι → Action ι → System ι → Prop
  | worker {s : System ι} {e : Event} {dir' : JobDir} {worker' : Worker} :
      WorkerStep upd s.dir s.worker e dir' worker' →
      Step upd s ⟨.worker, e⟩ { s with dir := dir', worker := worker' }
  | cancel {s : System ι} {i : ι} {e : Event} {dir' : JobDir} {call' : CancelCall} :
      CancelStep upd s.dir (s.cancels i) e dir' call' →
      Step upd s ⟨.cancel i, e⟩ { s with dir := dir', cancels := Function.update s.cancels i call' }

/-- A run that intake has just committed, before the worker or a request has seen it. -/
def enqueued : System ι where
  dir := { job := { status := .queued, stage := .intake } }
  worker := .polling
  cancels := fun _ => .idle

/-- The call of `update_job` a party is in. -/
def System.updateOf (s : System ι) : Party ι → Option (JobUpdate × UpdateProgress)
  | .worker =>
    match s.worker with
    | .updating _ u p => some (u, p)
    | _ => none
  | .cancel i =>
    match s.cancels i with
    | .updating u p => some (u, p)
    | _ => none

end Jobs
end SecureMail
