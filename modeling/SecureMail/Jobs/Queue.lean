import SecureMail.Jobs.Idempotence
import SecureMail.Jobs.Survival

/-!
# The queue

The jobs of a data root, the callers of intake, the requests to cancel and one worker. Here every
call of the store is one step, `update_job` and `claim_next` too, and an intake is the three calls
it makes. The worker goes through `process_next_job` again and again: it claims a job, executes it
statement by statement, and is started anew whenever it has died.

A call that raises may have changed the store before, so the calls keep the store beside the
exception: `StoreM` is exceptions over state and not state over exceptions, as a Python function
that raises half way has done what it has done. That a refused `update_job` has changed nothing is
then a theorem (`updateJob_refused`) and not a consequence of the types.

`claim_next` is written as the source has it, a loop with a handler in it that passes on to the next
job when one was taken away in between. In a system where the call is one step nobody takes anything
away, and `exec_claimNext_some` says that the loop ends at its first job.
-/

namespace SecureMail
namespace Jobs

open Transition

/-! ## The calls of the store -/

inductive JobError
  | notFound | alreadyTerminal | invalidArtifacts
deriving DecidableEq, Repr

def JobError.text : JobError → String
  | .notFound => "analysis run not found"
  | .alreadyTerminal => "analysis run is already terminal"
  | .invalidArtifacts => "invalid artifact availability"

def JobError.className : JobError → String
  | .notFound => "JobNotFoundError"
  | .alreadyTerminal => "JobConflictError"
  | .invalidArtifacts => "AnalysisJobError"

/-- What the handler of `execute_capture_job` sees of it. -/
def JobError.raised (error : JobError) : Raised := ⟨error.text, error.className⟩

/-- The `artifacts` of `update_job` may be any object. -/
inductive ArtifactsArgument
  | availability (artifacts : ArtifactAvailability)
  | other
deriving DecidableEq

/-- The keyword arguments of `update_job`, as a caller can give them. -/
structure UpdateArguments where
  status : Option AnalysisStatus := none
  stage : Option AnalysisStage := none
  errorMessage : Option String := none
  artifacts : Option ArtifactsArgument := none
  cancelRequested : Option Bool := none
deriving DecidableEq

def ArtifactsArgument.availability? : ArtifactsArgument → Option ArtifactAvailability
  | .availability artifacts => some artifacts
  | .other => none

/-- The changes the arguments ask for. Artifacts of a wrong kind are refused before, so that there
is nothing to ask for. -/
def UpdateArguments.update (args : UpdateArguments) : JobUpdate where
  status := args.status
  stage := args.stage
  errorMessage := args.errorMessage
  artifacts := args.artifacts.bind ArtifactsArgument.availability?
  cancelRequested := args.cancelRequested

/-- The arguments that ask for an update. It is how the scripts of the worker, written for one
record, are calls of the store. -/
def JobUpdate.arguments (u : JobUpdate) : UpdateArguments where
  status := u.status
  stage := u.stage
  errorMessage := u.errorMessage
  artifacts := u.artifacts.map ArtifactsArgument.availability
  cancelRequested := u.cancelRequested

/-- The job directories, and which of them have a `cancel.flag`. -/
structure DataRoot where
  store : JobStore
  cancelFlag : String → Bool := fun _ => false

namespace DataRoot

/-- `get_job`. -/
def getJob (root : DataRoot) (runId : String) : Option CaptureJob :=
  if isIdentifier runId then
    (root.store.entries.find? (·.name = runId)).bind (·.job)
  else none

/-- `_write_status`. The record goes through its serialization, which cuts its times to seconds. -/
def writeStatus (root : DataRoot) (runId : String) (job : CaptureJob) : DataRoot :=
  { root with
    store :=
      { root.store with
        entries := root.store.entries.map fun entry =>
          if entry.name = runId then { entry with job := some job.serialized } else entry } }

/-- `cancel.flag` is written or removed. -/
def writeFlag (root : DataRoot) (runId : String) (present : Bool) : DataRoot :=
  { root with cancelFlag := Function.update root.cancelFlag runId present }

/-- `is_cancel_requested`. -/
def isCancelRequested (root : DataRoot) (runId : String) : Bool :=
  match root.getJob runId with
  | none => false
  | some job => job.record.cancelRequested || root.cancelFlag runId

end DataRoot

abbrev StoreM := ExceptT JobError (StateM DataRoot)

/-- What a call returns or raises, and the store it leaves. -/
def exec {α : Type} (call : StoreM α) (root : DataRoot) : Except JobError α × DataRoot :=
  call.run root

/-- `update_job`. Inside one step of the store its reads and writes are not interrupted; where they
are, the accesses of `Store` are the model. -/
def updateJob (runId : String) (args : UpdateArguments) : StoreM CaptureJob := do
  let some current := (← get).getJob runId | throw .notFound
  if args.status.isSome && current.record.isTerminal then
    throw .alreadyTerminal
  if args.artifacts = some .other then
    throw .invalidArtifacts
  if let some requested := args.cancelRequested then
    modify (·.writeFlag runId requested)
  let updated := { current with record := args.update.patch current.record }
  modify (·.writeStatus runId updated)
  return updated

/-- `request_cancel`. -/
def requestCancel (runId : String) : StoreM CaptureJob := do
  let some current := (← get).getJob runId | throw .notFound
  if current.record.isTerminal then
    throw .alreadyTerminal
  updateJob runId (cancelUpdate current.record).arguments

/-- Queued, and nobody has asked to cancel it. -/
def CaptureJob.claimable (job : CaptureJob) : Bool :=
  job.record.status = .queued && !job.record.cancelRequested

/-- The first loop of `claim_next`. A job that has become terminal since it was listed is passed
over, and any other error ends the loop. -/
def claimFirst : List CaptureJob → StoreM (Option CaptureJob)
  | [] => return none
  | job :: rest =>
    tryCatch (some <$> updateJob job.runId.text { status := some .running }) fun error =>
      match error with
      | .alreadyTerminal => claimFirst rest
      | error => throw error

/-- The second loop of `claim_next`. -/
def cancelAll : List CaptureJob → StoreM Unit
  | [] => return ()
  | job :: rest => do
    let _ ← updateJob job.runId.text { status := some .cancelled }
    cancelAll rest

/-- `claim_next`. Only when nothing was claimed are the queued jobs looked at that somebody wants
cancelled. -/
def claimNext : StoreM (Option CaptureJob) := do
  let queued := (← get).store.listJobs.filter (·.claimable)
  let claimed ← claimFirst (queued.insertionSort (SortKey.Before JobStore.creationOrder))
  if claimed.isSome then
    return claimed
  let cancelled := (← get).store.listJobs.filter fun job =>
    job.record.status = .queued && job.record.cancelRequested
  cancelAll cancelled
  return none

/-! ## The parties -/

/-- Where the worker is in `process_next_job`. A failure that was not handled leaves the worker
dead, with the error it died of. -/
inductive Execution
  | idle
  | claimed (runId : String)
  | stages (runId : String) (rest : List Instr)
  | failing (runId : String) (exc : Raised)
  | died (error : JobError)
deriving DecidableEq

/-- One step of `execute_capture_job`. The record is read again at the start, since it may have
changed between the claim and the execution. -/
inductive ExecutionStep : DataRoot → Execution → DataRoot → Execution → Prop
  | start {root : DataRoot} {runId : String} {job : CaptureJob} :
      root.getJob runId = some job → job.record.status = .running →
      ExecutionStep root (.claimed runId) root (.stages runId executeStages)
  | notRunning {root : DataRoot} {runId : String} {job : CaptureJob} :
      root.getJob runId = some job → job.record.status ≠ .running →
      ExecutionStep root (.claimed runId) root .idle
  | unknown {root : DataRoot} {runId : String} : root.getJob runId = none →
      ExecutionStep root (.claimed runId) root (.died .notFound)
  | cancelled {root : DataRoot} {runId : String} {rest : List Instr} :
      root.isCancelRequested runId = true →
      ExecutionStep root (.stages runId (.check :: rest)) root
        (.stages runId [.update cancelledUpdate])
  | clear {root : DataRoot} {runId : String} {rest : List Instr} :
      root.isCancelRequested runId = false →
      ExecutionStep root (.stages runId (.check :: rest)) root (.stages runId rest)
  | update {root root' : DataRoot} {runId : String} {u : JobUpdate} {rest : List Instr}
      {job : CaptureJob} : exec (updateJob runId u.arguments) root = (.ok job, root') →
      ExecutionStep root (.stages runId (.update u :: rest)) root' (.stages runId rest)
  | updateRaised {root root' : DataRoot} {runId : String} {u : JobUpdate} {rest : List Instr}
      {error : JobError} : exec (updateJob runId u.arguments) root = (.error error, root') →
      ExecutionStep root (.stages runId (.update u :: rest)) root' (.failing runId error.raised)
  | call {root : DataRoot} {runId : String} {c : Call} {rest : List Instr} :
      ExecutionStep root (.stages runId (.call c :: rest)) root (.stages runId rest)
  -- Any statement of the body may raise.
  | raised {root : DataRoot} {runId : String} {i : Instr} {rest : List Instr} {exc : Raised} :
      ExecutionStep root (.stages runId (i :: rest)) root (.failing runId exc)
  | returned {root : DataRoot} {runId : String} :
      ExecutionStep root (.stages runId []) root .idle
  | failed {root root' : DataRoot} {runId : String} {exc : Raised} {job : CaptureJob} :
      exec (updateJob runId (failUpdate exc).arguments) root = (.ok job, root') →
      ExecutionStep root (.failing runId exc) root' .idle
  | failRaised {root root' : DataRoot} {runId : String} {exc : Raised} {error : JobError} :
      exec (updateJob runId (failUpdate exc).arguments) root = (.error error, root') →
      ExecutionStep root (.failing runId exc) root' (.died error)

/-- The files of the job directories have grown or shrunk, their records and flags are as before. -/
def DataRoot.Resized (root root' : DataRoot) : Prop :=
  root'.cancelFlag = root.cancelFlag ∧ root'.store.quarantine = root.store.quarantine ∧
    root'.store.maxJobs = root.store.maxJobs ∧
    root'.store.maxDataBytes = root.store.maxDataBytes ∧
    root'.store.entries.map (fun entry => (entry.name, entry.job)) =
      root.store.entries.map fun entry => (entry.name, entry.job)

structure Queue (ι : Type*) where
  root : DataRoot
  worker : Execution
  intakes : ι → IntakeProgress

inductive QueueAction (ι : Type*)
  | intake (i : ι) (action : IntakeAction) (after : IntakeProgress)
  | requestCancel (runId : String)
  | claim (claimed : Option CaptureJob)
  | execute
  | restart
  | resize

variable {ι : Type*} [DecidableEq ι]

inductive QueueStep (host : Host) (requests : ι → CaptureIntakeRequest) :
    Queue ι → QueueAction ι → Queue ι → Prop
  | intake {q : Queue ι} {i : ι} {action : IntakeAction} {moved : JobStore × IntakeProgress} :
      advance host (requests i) q.root.store (q.intakes i) action = some moved →
      QueueStep host requests q (.intake i action moved.2)
        { q with
          root := { q.root with store := moved.1 }
          intakes := Function.update q.intakes i moved.2 }
  | requestCancel {q : Queue ι} {runId : String} {outcome : Except JobError CaptureJob}
      {root' : DataRoot} : exec (requestCancel runId) q.root = (outcome, root') →
      QueueStep host requests q (.requestCancel runId) { q with root := root' }
  | claim {q : Queue ι} {job : CaptureJob} {root' : DataRoot} : q.worker = .idle →
      exec claimNext q.root = (.ok (some job), root') →
      QueueStep host requests q (.claim (some job))
        { q with root := root', worker := .claimed job.runId.text }
  | claimNone {q : Queue ι} {root' : DataRoot} : q.worker = .idle →
      exec claimNext q.root = (.ok none, root') →
      QueueStep host requests q (.claim none) { q with root := root' }
  | claimRaised {q : Queue ι} {error : JobError} {root' : DataRoot} : q.worker = .idle →
      exec claimNext q.root = (.error error, root') →
      QueueStep host requests q (.claim none) { q with root := root', worker := .died error }
  | execute {q : Queue ι} {root' : DataRoot} {worker' : Execution} :
      ExecutionStep q.root q.worker root' worker' →
      QueueStep host requests q .execute { q with root := root', worker := worker' }
  | restart {q : Queue ι} : QueueStep host requests q .restart { q with worker := .idle }
  | resize {q : Queue ι} {root' : DataRoot} : q.root.Resized root' →
      QueueStep host requests q .resize { q with root := root' }

/-! ## How the calls run -/

section

variable {α β : Type} {root : DataRoot}

@[simp] theorem exec_pure (a : α) : exec (pure a) root = (.ok a, root) := rfl

@[simp] theorem exec_throw (error : JobError) :
    exec (throw error : StoreM α) root = (.error error, root) := rfl

@[simp] theorem exec_get : exec (get : StoreM DataRoot) root = (.ok root, root) := rfl

@[simp] theorem exec_modify (f : DataRoot → DataRoot) :
    exec (modify f : StoreM PUnit) root = (.ok ⟨⟩, f root) := rfl

theorem exec_bind (call : StoreM α) (next : α → StoreM β) :
    exec (call >>= next) root =
      match exec call root with
      | (.ok a, root') => exec (next a) root'
      | (.error error, root') => (.error error, root') := by
  show (match call.run root with
    | (outcome, root') => ExceptT.bindCont next outcome root') = _
  rw [exec]
  cases call.run root with
  | mk outcome root' =>
    cases outcome with
    | ok a => rfl
    | error error => rfl

theorem exec_tryCatch (call : StoreM α) (handler : JobError → StoreM α) :
    exec (tryCatch call handler) root =
      match exec call root with
      | (.ok a, root') => (.ok a, root')
      | (.error error, root') => exec (handler error) root' := by
  show exec (ExceptT.tryCatch call handler) root = _
  simp only [exec, ExceptT.tryCatch, ExceptT.mk, ExceptT.run, bind, StateT.bind]
  cases call root with
  | mk outcome root' =>
    cases outcome with
    | ok a => rfl
    | error error => rfl

@[simp] theorem exec_map (f : α → β) (call : StoreM α) :
    exec (f <$> call) root = ((exec call root).1.map f, (exec call root).2) := by
  rw [← bind_pure_comp, exec_bind]
  cases exec call root with
  | mk outcome root' =>
    cases outcome with
    | ok a => rfl
    | error error => rfl

end

/-- The run's record and flag are these. -/
def DataRoot.put (root : DataRoot) (runId : String) (job : CaptureJob) (flag : Bool) : DataRoot :=
  (root.writeFlag runId flag).writeStatus runId job

/-- `update_job` raises before it has changed anything, or changes the run's directory as
`JobDir.updateJob` does. -/
theorem exec_updateJob (root : DataRoot) (runId : String) (args : UpdateArguments) :
    exec (updateJob runId args) root =
      match root.getJob runId with
      | none => (.error .notFound, root)
      | some current =>
        if args.update.refuses current.record then (.error .alreadyTerminal, root)
        else if args.artifacts = some .other then (.error .invalidArtifacts, root)
        else
          (.ok { current with record := args.update.patch current.record },
            root.put runId { current with record := args.update.patch current.record }
              (args.update.flag (root.cancelFlag runId))) := by
  unfold updateJob
  rw [exec_bind, exec_get]
  cases hjob : root.getJob runId with
  | none => simp [hjob]
  | some current =>
    simp only [hjob, JobUpdate.refuses, UpdateArguments.update]
    by_cases hterminal : args.status.isSome && current.record.isTerminal
    · simp [hterminal]
    · by_cases hartifacts : args.artifacts = some .other
      · simp [hterminal, hartifacts]
      · cases hflag : args.cancelRequested with
        | none =>
          simp [hterminal, hartifacts, DataRoot.put, JobUpdate.flag, DataRoot.writeFlag, Except.map]
        | some requested =>
          simp [hterminal, hartifacts, exec_bind, DataRoot.put, JobUpdate.flag, Except.map]

/-- **A call of `update_job` that is refused has changed nothing.** So the handlers of the callers
start from the store as it was. -/
theorem updateJob_refused {root root' : DataRoot} {runId : String} {args : UpdateArguments}
    {error : JobError} (h : exec (updateJob runId args) root = (.error error, root')) :
    root' = root := by
  rw [exec_updateJob] at h
  cases hjob : root.getJob runId with
  | none =>
    rw [hjob] at h
    exact (Prod.mk.inj h).2.symm
  | some current =>
    rw [hjob] at h
    dsimp only at h
    split at h
    · exact (Prod.mk.inj h).2.symm
    · split at h
      · exact (Prod.mk.inj h).2.symm
      · exact absurd (Prod.mk.inj h).1 (by simp)

@[simp] theorem update_arguments (u : JobUpdate) : u.arguments.update = u := by
  cases u with
  | mk status stage errorMessage artifacts cancelRequested =>
    cases artifacts <;> rfl

theorem arguments_ne_other (u : JobUpdate) : u.arguments.artifacts ≠ some .other := by
  cases h : u.artifacts <;> simp [JobUpdate.arguments, h]

/-- With arguments of the right type it is refused for a terminal record alone. -/
theorem exec_update {root : DataRoot} {runId : String} {current : CaptureJob} (u : JobUpdate)
    (hjob : root.getJob runId = some current) :
    exec (updateJob runId u.arguments) root =
      if u.refuses current.record then (.error .alreadyTerminal, root)
      else
        (.ok { current with record := u.patch current.record },
          root.put runId { current with record := u.patch current.record }
            (u.flag (root.cancelFlag runId))) := by
  rw [exec_updateJob, hjob]
  simp only [update_arguments, if_neg (arguments_ne_other u)]

/-! ## Records -/

theorem CaptureJob.serialized_serialized (job : CaptureJob) :
    job.serialized.serialized = job.serialized := by
  have hcut : (job.createdAt - job.createdAt % 1000000) % 1000000 = 0 := by omega
  unfold CaptureJob.serialized
  simp only [hcut, Int.sub_zero]

/-- The directories have names of their own and each has the record of its run; a queued record is
not marked for cancelling. The last is what makes the second loop of `claim_next` idle: a request
that finds a job queued sets its status along with the mark. -/
structure DataRoot.WellFormed (root : DataRoot) : Prop where
  names : (root.store.entries.map (·.name)).Nodup
  runId : ∀ entry ∈ root.store.entries, ∀ job, entry.job = some job → job.runId.text = entry.name
  stored : ∀ entry ∈ root.store.entries, ∀ job, entry.job = some job → job.serialized = job
  unmarked : ∀ entry ∈ root.store.entries, ∀ job, entry.job = some job →
    job.record.status = .queued → job.record.cancelRequested = false

section

variable {root : DataRoot} {runId : String} {job : CaptureJob}

theorem JobStore.mem_listJobs {store : JobStore} {job : CaptureJob} :
    job ∈ store.listJobs ↔ ∃ entry ∈ store.entries, entry.job = some job := by
  unfold JobStore.listJobs
  rw [List.mem_filterMap]
  simp only [List.mem_insertionSort]

theorem DataRoot.exists_entry (h : root.getJob runId = some job) :
    ∃ entry ∈ root.store.entries, entry.name = runId ∧ entry.job = some job := by
  unfold DataRoot.getJob at h
  split at h
  · obtain ⟨entry, hfind, hjob⟩ := Option.bind_eq_some_iff.mp h
    exact ⟨entry, List.mem_of_find?_eq_some hfind, by simpa using List.find?_some hfind, hjob⟩
  · cases h

/-- Among names that differ the first entry of a name is the only one. -/
theorem find?_name {entries : List JobEntry} (hnames : (entries.map (·.name)).Nodup)
    {entry : JobEntry} (h : entry ∈ entries) :
    entries.find? (·.name = entry.name) = some entry := by
  induction entries with
  | nil => exact absurd h List.not_mem_nil
  | cons first rest ih =>
    rw [List.map_cons, List.nodup_cons] at hnames
    rcases List.mem_cons.mp h with rfl | hrest
    · simp
    · have hne : first.name ≠ entry.name := by
        intro heq
        exact hnames.1 (List.mem_map.mpr ⟨entry, hrest, heq.symm⟩)
      rw [List.find?_cons_of_neg (by simpa using hne)]
      exact ih hnames.2 hrest

/-- The records that `get_job` finds are those that `list_jobs` lists. -/
theorem DataRoot.WellFormed.getJob_iff (h : root.WellFormed) :
    root.getJob runId = some job ↔ job ∈ root.store.listJobs ∧ job.runId.text = runId := by
  rw [JobStore.mem_listJobs]
  constructor
  · intro hjob
    obtain ⟨entry, hentry, rfl, hrecord⟩ := exists_entry hjob
    exact ⟨⟨entry, hentry, hrecord⟩, h.runId entry hentry job hrecord⟩
  · rintro ⟨⟨entry, hentry, hrecord⟩, rfl⟩
    unfold getJob
    rw [if_pos job.runId.valid, h.runId entry hentry job hrecord, find?_name h.names hentry]
    exact hrecord

theorem DataRoot.WellFormed.getJob_of_mem (h : root.WellFormed)
    (hjob : job ∈ root.store.listJobs) : root.getJob job.runId.text = some job :=
  h.getJob_iff.mpr ⟨hjob, rfl⟩

/-! ## One record is rewritten -/

theorem DataRoot.getJob_put {job' : CaptureJob} {flag : Bool} (hjob : root.getJob runId = some job)
    (name : String) :
    (root.put runId job' flag).getJob name =
      if name = runId then some job'.serialized else root.getJob name := by
  obtain ⟨entry, hentry, hname, hrecord⟩ := exists_entry hjob
  have hvalid : isIdentifier runId = true := by
    by_contra hnot
    rw [getJob, if_neg hnot] at hjob
    cases hjob
  have hfind : ∀ entries : List JobEntry, (entries.map fun entry =>
      if entry.name = runId then { entry with job := some job'.serialized } else entry).find?
        (·.name = name) =
      (entries.find? (·.name = name)).map fun entry =>
        if entry.name = runId then { entry with job := some job'.serialized } else entry := by
    intro entries
    rw [List.find?_map]
    congr 1
    refine congrArg (List.find? · entries) (funext fun entry => ?_)
    by_cases hentry : entry.name = runId <;> simp [hentry]
  unfold getJob put writeStatus writeFlag
  simp only [hfind]
  by_cases heq : name = runId
  · subst heq
    rw [if_pos hvalid, if_pos rfl]
    cases hfound : root.store.entries.find? (·.name = name) with
    | none =>
      exact absurd hname (by simpa using List.find?_eq_none.mp hfound entry hentry)
    | some found =>
      have hfoundName : found.name = name := by simpa using List.find?_some hfound
      simp [hfoundName]
  · rw [if_neg heq]
    by_cases hname' : isIdentifier name = true
    · rw [if_pos hname', if_pos hname']
      cases hfound : root.store.entries.find? (·.name = name) with
      | none => rfl
      | some found =>
        have hfoundName : found.name = name := by simpa using List.find?_some hfound
        have hne : found.name ≠ runId := by rwa [hfoundName]
        simp [hne]
    · rw [if_neg hname', if_neg hname']

theorem DataRoot.WellFormed.put {record : AnalysisJob} {flag : Bool} (h : root.WellFormed)
    (hjob : root.getJob runId = some job)
    (hunmarked : record.status = .queued → record.cancelRequested = false) :
    (root.put runId { job with record := record } flag).WellFormed := by
  obtain ⟨hmem, hrunId⟩ := h.getJob_iff.mp hjob
  obtain ⟨entry₀, hentry₀, hrecord₀⟩ := JobStore.mem_listJobs.mp hmem
  have hserialized : ({ job with record := record } : CaptureJob).serialized =
      { job with record := record } := by
    have hold := congrArg CaptureJob.createdAt (h.stored entry₀ hentry₀ job hrecord₀)
    have hcut : job.createdAt - job.createdAt % 1000000 = job.createdAt := hold
    unfold CaptureJob.serialized
    simp only [hcut]
  -- A record of the new store is the new one, or an old one.
  have hentries : ∀ entry ∈ (root.put runId { job with record := record } flag).store.entries,
      ∀ job', entry.job = some job' →
      (entry.name = runId ∧ job' = { job with record := record }) ∨
        entry ∈ root.store.entries := by
    intro entry hentry job' hjob'
    obtain ⟨old, hold, rfl⟩ := List.mem_map.mp hentry
    by_cases hname : old.name = runId
    · rw [if_pos hname] at hjob' ⊢
      left
      rw [hserialized] at hjob'
      exact ⟨hname, (Option.some.inj hjob').symm⟩
    · rw [if_neg hname]
      exact Or.inr hold
  refine ⟨?_, ?_, ?_, ?_⟩
  · have hsame : (root.put runId { job with record := record } flag).store.entries.map (·.name) =
        root.store.entries.map (·.name) := by
      show List.map _ (List.map _ root.store.entries) = _
      rw [List.map_map]
      refine List.map_congr_left ?_
      intro entry _
      show (if entry.name = runId then _ else entry : JobEntry).name = entry.name
      by_cases hname : entry.name = runId <;> simp [hname]
    rw [hsame]
    exact h.names
  · intro entry hentry job' hjob'
    rcases hentries entry hentry job' hjob' with ⟨hname, rfl⟩ | hold
    · exact hrunId.trans hname.symm
    · exact h.runId entry hold job' hjob'
  · intro entry hentry job' hjob'
    rcases hentries entry hentry job' hjob' with ⟨-, rfl⟩ | hold
    · exact hserialized
    · exact h.stored entry hold job' hjob'
  · intro entry hentry job' hjob'
    rcases hentries entry hentry job' hjob' with ⟨-, rfl⟩ | hold
    · exact hunmarked
    · exact h.unmarked entry hold job' hjob'

theorem DataRoot.WellFormed.serialized_of_getJob (h : root.WellFormed)
    (hjob : root.getJob runId = some job) : job.serialized = job := by
  obtain ⟨entry, hentry, -, hrecord⟩ := exists_entry hjob
  exact h.stored entry hentry job hrecord

theorem DataRoot.WellFormed.unmarked_of_getJob (h : root.WellFormed)
    (hjob : root.getJob runId = some job) (hqueued : job.record.status = .queued) :
    job.record.cancelRequested = false := by
  obtain ⟨entry, hentry, -, hrecord⟩ := exists_entry hjob
  exact h.unmarked entry hentry job hrecord hqueued

end

/-! ## `claim_next` -/

/-- The jobs that `claim_next` chooses from. -/
def DataRoot.claimable (root : DataRoot) : List CaptureJob :=
  root.store.listJobs.filter (·.claimable)

/-- The job as it is claimed. -/
def CaptureJob.running (job : CaptureJob) : CaptureJob :=
  { job with record := { job.record with status := .running } }

section

variable {root : DataRoot}

theorem CaptureJob.claimable_iff {job : CaptureJob} :
    job.claimable = true ↔ job.record.status = .queued ∧ job.record.cancelRequested = false := by
  simp [CaptureJob.claimable]

/-- Nothing to claim: nothing is done. -/
theorem exec_claimNext_none (h : root.WellFormed) (hnone : root.claimable = []) :
    exec claimNext root = (.ok none, root) := by
  have hunmarked : (root.store.listJobs.filter fun job =>
      job.record.status = .queued && job.record.cancelRequested) = [] := by
    rw [List.filter_eq_nil_iff]
    intro job hjob hboth
    obtain ⟨entry, hentry, hrecord⟩ := JobStore.mem_listJobs.mp hjob
    rw [Bool.and_eq_true, decide_eq_true_eq] at hboth
    rw [h.unmarked entry hentry job hrecord hboth.1] at hboth
    exact absurd hboth.2 (by decide)
  have hqueued : root.store.listJobs.filter (·.claimable) = [] := hnone
  unfold claimNext
  simp only [exec_bind, exec_get, hqueued, List.insertionSort_nil, claimFirst, exec_pure,
    Option.isSome_none, Bool.false_eq_true, if_false, hunmarked, cancelAll]

/-- The first job in order of creation is claimed. -/
theorem exec_claimNext_some (h : root.WellFormed) {first : CaptureJob} {rest : List CaptureJob}
    (hsorted : root.claimable.insertionSort (SortKey.Before JobStore.creationOrder) = first :: rest) :
    exec claimNext root = (.ok (some first.running),
      root.put first.runId.text first.running (root.cancelFlag first.runId.text)) := by
  have hmem : first ∈ root.claimable := by
    rw [← List.mem_insertionSort (SortKey.Before JobStore.creationOrder), hsorted]
    exact List.mem_cons_self
  obtain ⟨hlisted, hclaimable⟩ := List.mem_filter.mp hmem
  obtain ⟨hqueued, -⟩ := CaptureJob.claimable_iff.mp hclaimable
  have hguard : ({ status := some .running } : JobUpdate).refuses first.record = false := by
    rw [JobUpdate.refuses_eq_false_iff, AnalysisJob.isTerminal, hqueued]
    exact Or.inr rfl
  have hupdate := exec_update { status := some .running } (h.getJob_of_mem hlisted)
  rw [hguard] at hupdate
  have hclaim : exec (claimFirst (first :: rest)) root = (.ok (some first.running),
      root.put first.runId.text first.running (root.cancelFlag first.runId.text)) := by
    rw [claimFirst, exec_tryCatch, exec_map]
    rw [show (updateJob first.runId.text { status := some .running }) =
      updateJob first.runId.text ({ status := some .running } : JobUpdate).arguments from rfl, hupdate]
    rfl
  have hqueue : (root.store.listJobs.filter (·.claimable)).insertionSort
      (SortKey.Before JobStore.creationOrder) = first :: rest := hsorted
  unfold claimNext
  simp only [exec_bind, exec_get, hqueue, hclaim, Option.isSome_some, if_true, exec_pure]

end

end Jobs
end SecureMail
