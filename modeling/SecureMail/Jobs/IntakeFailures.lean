import Mathlib.Logic.Relation
import SecureMail.Jobs.Chunking
import SecureMail.Lib.Handlers

/-!
# Intakes on a disk that fails

`stage_capture` and `commit_staged` reach the disk in many small operations, and any of them may
raise. Some are followed by a handler: a part that could not be written is closed and removed, a job
directory that did not get its capture is removed with what is in it, and `finally` removes the part
that an intake leaves in quarantine. Four are not. A part whose `close` raises stays, because
`finally` does not know it yet. And `commit_staged` makes `artifacts` and writes `status.json` after
its handler, so the directory stays, with the capture in it and no record: nobody lists it, and it
takes its share of both limits.

The functions here are the ones of `Intake` with their operations written out, one of which may fail.
Which one is a parameter, so that a failure is data and the law can be stated as a condition on it.
With no failure they compute what `Intake` computes, which is proved at the end and ties the two
models together; what they leave behind when one fails is read off the handlers rule by rule.
-/

namespace SecureMail
namespace Jobs

open Handlers

namespace Faulty

/-- The operations of `_ensure_layout`. -/
inductive LayoutOp
  | mkdirRoot | checkRoot | mkdirJobs | mkdirQuarantine
deriving DecidableEq, Repr

/-- The operations of `stage_capture` and `commit_staged`, in their order, without those that clean
up. A write is named by its position in the file; the text of a record may be written in part. -/
inductive FsOp
  | stageLayout (op : LayoutOp)
  | create
  | write (offset : Nat)
  | fsync
  | close
  | commitLayout (op : LayoutOp)
  | findPart
  | listJobs
  | usage
  | statPart
  | mkdirJob
  | replaceCapture
  | chmodCapture
  | mkdirArtifacts
  | writeStatus (written : Nat)
  | replaceStatus
deriving DecidableEq, Repr

/-- What an intake raises: an error of its own, or the one of the disk. -/
inductive Raised
  | intake (error : IntakeError)
  | cannotStore
  | os (op : FsOp)
deriving DecidableEq, Repr

/-- The text of the errors that are not the system's. -/
def Raised.text? : Raised → Option String
  | .intake error => some error.text
  | .cannotStore => some "cannot store capture"
  | .os _ => none

end Faulty

/-! ## The files between two operations -/

namespace JobStore

/-- A part of `n` bytes is in quarantine. -/
def withPart (store : JobStore) (uploadId : Identifier) (n : Nat) : JobStore :=
  { store with quarantine := (uploadId, n) :: store.quarantine }

def growPart (uploadId : Identifier) (n : Nat) (store : JobStore) : JobStore :=
  { store with quarantine := store.quarantine.map fun file =>
      if file.1 = uploadId then (file.1, file.2 + n) else file }

/-- A directory is among the jobs. -/
def withEntry (store : JobStore) (entry : JobEntry) : JobStore :=
  { store with entries := entry :: store.entries }

/-- The directory of a run, with nothing in it. -/
def mkdirJob (runId : Identifier) (store : JobStore) : JobStore :=
  store.withEntry ⟨runId.text, none, 0⟩

def updateEntry (runId : Identifier) (change : JobEntry → JobEntry) (store : JobStore) : JobStore :=
  { store with entries := store.entries.map fun entry =>
      if entry.name = runId.text then change entry else entry }

/-- `n` more bytes are in the directory of a run. -/
def growEntry (runId : Identifier) (n : Nat) (store : JobStore) : JobStore :=
  store.updateEntry runId fun entry => { entry with bytes := entry.bytes + n }

/-- `_remove_tree(job_dir)`. -/
def removeTree (runId : Identifier) (store : JobStore) : JobStore :=
  { store with entries := store.entries.filter fun entry => entry.name ≠ runId.text }

end JobStore

/-! ## What the file operations do -/

theorem Drawing.size_draw {maxBytes : Nat} {drawing drawn : Drawing} {chunk : List UInt8}
    (h : drawing.draw maxBytes chunk = .ok drawn) :
    drawn.staging.size = drawing.staging.size + chunk.length := by
  unfold Drawing.draw at h
  by_cases hempty : chunk.isEmpty = true
  · rw [if_pos hempty] at h
    obtain rfl := Except.ok.inj h
    simp [List.isEmpty_iff.mp hempty]
  by_cases hlong : maxBytes < drawing.counted + chunk.length
  · simp [hempty, hlong] at h
  · rw [if_neg hempty, if_neg hlong] at h
    obtain rfl := Except.ok.inj h
    rfl

namespace JobStore

variable {store : JobStore} {uploadId runId : Identifier} {n m : Nat}

theorem ne_of_lookup_eq_none (h : store.quarantine.lookup uploadId = none) :
    ∀ file ∈ store.quarantine, file.1 ≠ uploadId := by
  intro file hfile heq
  have hne := List.lookup_eq_none_iff.mp h file hfile
  simp [heq] at hne

@[simp] theorem growPart_withPart (h : store.quarantine.lookup uploadId = none) :
    (store.withPart uploadId m).growPart uploadId n = store.withPart uploadId (m + n) := by
  have hrest : ((uploadId, m) :: store.quarantine).map (fun file =>
      if file.1 = uploadId then (file.1, file.2 + n) else file) =
        (uploadId, m + n) :: store.quarantine := by
    rw [List.map_cons, if_pos rfl]
    congr 1
    apply (List.map_congr_left _).trans (List.map_id _)
    intro file hfile
    exact if_neg (ne_of_lookup_eq_none h file hfile)
  exact congrArg (fun files => ({ store with quarantine := files } : JobStore)) hrest

@[simp] theorem dropStaged_withPart (h : store.quarantine.lookup uploadId = none) :
    (store.withPart uploadId n).dropStaged uploadId = store := by
  have hrest : ((uploadId, n) :: store.quarantine).filter (fun file => file.1 ≠ uploadId) =
      store.quarantine := by
    rw [List.filter_cons_of_neg (by simp)]
    apply List.filter_eq_self.mpr
    intro file hfile
    simpa using ne_of_lookup_eq_none h file hfile
  exact congrArg (fun files => ({ store with quarantine := files } : JobStore)) hrest

variable {entry : JobEntry}

@[simp] theorem dropStaged_withEntry :
    (store.withEntry entry).dropStaged uploadId = (store.dropStaged uploadId).withEntry entry := rfl

@[simp] theorem dropStaged_dropStaged :
    (store.dropStaged uploadId).dropStaged uploadId = store.dropStaged uploadId := by
  unfold dropStaged
  simp only [List.filter_filter, Bool.and_self]

/-- A change to the only directory of a name is a change to that directory. -/
theorem updateEntry_withEntry (hfree : ∀ other ∈ store.entries, other.name ≠ runId.text)
    (hname : entry.name = runId.text) (change : JobEntry → JobEntry) :
    (store.withEntry entry).updateEntry runId change = store.withEntry (change entry) := by
  have hrest : (entry :: store.entries).map (fun other =>
      if other.name = runId.text then change other else other) = change entry :: store.entries := by
    rw [List.map_cons, if_pos hname]
    congr 1
    apply (List.map_congr_left _).trans (List.map_id _)
    intro other hother
    exact if_neg (hfree other hother)
  exact congrArg (fun entries => ({ store with entries := entries } : JobStore)) hrest

theorem removeTree_withEntry (hfree : ∀ other ∈ store.entries, other.name ≠ runId.text)
    (hname : entry.name = runId.text) : (store.withEntry entry).removeTree runId = store := by
  have hrest : (entry :: store.entries).filter (fun other => other.name ≠ runId.text) =
      store.entries := by
    rw [List.filter_cons_of_neg (by simpa using hname)]
    apply List.filter_eq_self.mpr
    intro other hother
    simpa using hfree other hother
  exact congrArg (fun entries => ({ store with entries := entries } : JobStore)) hrest

end JobStore

namespace Faulty

section

variable (fault : Option FsOp)

/-- An operation of the disk, unless it is the one that fails. -/
def perform (op : FsOp) (change : JobStore → JobStore) : Effect Raised JobStore Unit :=
  if fault = some op then throw (.os op) else modify change

/-- `_ensure_layout`. -/
def ensureLayout (which : LayoutOp → FsOp) : Effect Raised JobStore Unit := do
  perform fault (which .mkdirRoot) id
  perform fault (which .checkRoot) id
  perform fault (which .mkdirJobs) id
  perform fault (which .mkdirQuarantine) id

/-! ## `stage_capture` -/

/-- `os.open` with `O_EXCL`. -/
def createPart (uploadId : Identifier) : Effect Raised JobStore Unit := do
  let store ← get
  if fault = some .create ∨ (store.quarantine.lookup uploadId).isSome then
    throw (.intake .cannotCreate)
  else modify (·.withPart uploadId 0)

/-- The inner loop. `os.write` takes at least one of the bytes left, and at a position `p` up to
`accepts p` more; as many rounds as there are bytes are enough. -/
def writeAll (accepts : Nat → Nat) (uploadId : Identifier) :
    Nat → Nat → Nat → Effect Raised JobStore Unit
  | _, _, 0 => pure ()
  | 0, _, _ + 1 => pure ()
  | rounds + 1, offset, left + 1 => do
    let taken := min (accepts offset) left
    perform fault (.write offset) (·.growPart uploadId (taken + 1))
    writeAll accepts uploadId rounds (offset + (taken + 1)) (left - taken)

/-- A chunk through `_BoundedChunks`, into the digest and into the file. -/
def drawChunk (accepts : Nat → Nat) (uploadId : Identifier) (maxBytes : Nat) (drawing : Drawing)
    (chunk : List UInt8) : Effect Raised JobStore Drawing := do
  let drawn ← raising .intake (drawing.draw maxBytes chunk)
  writeAll fault accepts uploadId chunk.length drawing.staging.size chunk.length
  pure drawn

/-- The handler of the loop. An `os.close` that raises here raises before the `unlink`. -/
def giveUp (uploadId : Identifier) (error : Raised) : Effect Raised JobStore Staging := do
  perform fault .close id
  modify (·.dropStaged uploadId)
  throw error

/-- `stage_capture`. What raises inside the handler is cleaned up there, and what raises before or
after it is not. -/
def stageCapture (host : Host) (accepts : Nat → Nat) (token : Token) (maxBytes : Nat)
    (chunks : List (List UInt8)) : Effect Raised JobStore StagedCapture := do
  let uploadId := uploadIdOf token
  ensureLayout fault .stageLayout
  createPart fault uploadId
  let staging ← tryCatch
    (do
      let drawing ← chunks.foldlM (drawChunk fault accepts uploadId maxBytes) {}
      perform fault .fsync id
      pure drawing.staging)
    (giveUp fault uploadId)
  perform fault .close id
  if staging.size = 0 then do
    modify (·.dropStaged uploadId)
    throw (.intake .captureEmpty)
  else pure ⟨uploadId, host.sha256 staging.digested, staging.size, staging.header.take 4⟩

/-! ## `commit_staged` -/

/-- `tmp.write_text`. A write that fails may have written a part of the text, whose length is the
parameter. -/
def writeText (runId : Identifier) (bytes : Nat) : Effect Raised JobStore Unit :=
  match fault with
  | some (.writeStatus written) => do
    modify (·.growEntry runId (min written bytes))
    throw (.os (.writeStatus written))
  | _ => modify (·.growEntry runId bytes)

/-- `_write_status`. The record appears under its name in one `os.replace`. -/
def writeStatus (host : Host) (job : CaptureJob) : Effect Raised JobStore Unit := do
  writeText fault job.runId (host.statusBytes job)
  perform fault .replaceStatus
    (·.updateEntry job.runId fun entry => { entry with job := some job.serialized })

/-- The checks of `commit_staged` before the job directory is made, with the size of the part. -/
def checkRoom (uploadId : Identifier) : Effect Raised JobStore Nat := do
  perform fault .findPart id
  let store ← get
  match store.quarantine.lookup uploadId with
  | none => throw (.intake .stagedMissing)
  | some size => do
    perform fault .listJobs id
    if store.maxJobs ≤ store.entries.length then throw (.intake (.tooManyJobs store.maxJobs))
    else do
      perform fault .usage id
      perform fault .statPart id
      if store.maxDataBytes < store.usageBytes + size then
        throw (.intake (.tooManyBytes store.maxDataBytes))
      else pure size

/-- `job_dir.mkdir`. -/
def makeJobDir (runId : Identifier) : Effect Raised JobStore Unit := do
  let store ← get
  if store.entries.any (·.name = runId.text) then throw (.intake .duplicateRunId)
  else perform fault .mkdirJob (·.mkdirJob runId)

/-- `commit_staged`. The directory exists from its third line on, and only two operations after it
have a handler. -/
def commitStaged (host : Host) (uploadId : Identifier) (job : CaptureJob) :
    Effect Raised JobStore CaptureJob := do
  ensureLayout fault .commitLayout
  let size ← checkRoom fault uploadId
  makeJobDir fault job.runId
  tryCatch
    (do
      perform fault .replaceCapture fun store =>
        (store.dropStaged uploadId).growEntry job.runId size
      perform fault .chmodCapture id)
    fun _ => do
      modify (·.removeTree job.runId)
      throw .cannotStore
  -- The handler ends above: what raises from here on leaves the directory.
  perform fault .mkdirArtifacts id
  writeStatus fault host job
  pure job

/-! ## `ingest_capture` -/

/-- `abort_staged`. -/
def abortStaged (uploadId : Identifier) : Effect Raised JobStore Unit :=
  modify (·.dropStaged uploadId)

/-- `ingest_capture` from the upload on. The upload is in quarantine when it begins, and each way
out has to take it from there. -/
def ingestStaged (host : Host) (request : CaptureIntakeRequest) (format : CaptureFormat)
    (staged : StagedCapture) (runToken : Token) (now : Int) : Effect Raised JobStore CaptureJob := do
  raising .intake (validateMagic staged.header format)
  let store ← get
  match (store.findDuplicate (request.key staged.sha256)).filter (·.isReusable) with
  | some duplicate => do
    -- `finally` aborts once more and finds nothing.
    abortStaged staged.uploadId
    pure duplicate
  | none => do
    let job ← raising .intake (newJob request staged runToken now)
    commitStaged fault host staged.uploadId job

/-- `ingest_capture`. The handler at the end is the `finally` of the source, which runs for errors;
where the intake returns, the upload is gone already. -/
def ingestCapture (host : Host) (accepts : Nat → Nat) (request : CaptureIntakeRequest)
    (token runToken : Token) (now : Int) : Effect Raised JobStore CaptureJob := do
  let filename ← raising .intake (basename request.originalFilename)
  let format ← raising .intake (captureFormatForFilename filename)
  -- Until `stage_capture` returns there is nothing that `finally` could abort.
  let staged ← stageCapture fault host accepts token request.maxCaptureBytes request.chunks
  tryCatch (ingestStaged fault host request format staged runToken now) fun error => do
    abortStaged staged.uploadId
    throw error

end


section

variable {fault : Option FsOp} {host : Host} {accepts : Nat → Nat} {store s : JobStore}
  {request : CaptureIntakeRequest} {token runToken : Token} {now : Int} {uploadId : Identifier}
  {job : CaptureJob} {Q : Unit → JobStore → Prop} {R : Raised → JobStore → Prop}

theorem ends_perform {op : FsOp} {change : JobStore → JobStore}
    (hfails : fault = some op → R (.os op) s) (hworks : fault ≠ some op → Q () (change s)) :
    Ends (perform fault op change) s Q R := by
  unfold perform
  by_cases h : fault = some op
  · rw [if_pos h, ends_throw]
    exact hfails h
  · rw [if_neg h, ends_modify]
    exact hworks h

theorem ends_ensureLayout {which : LayoutOp → FsOp}
    (hfails : ∀ op, fault = some (which op) → R (.os (which op)) s) (hworks : Q () s) :
    Ends (ensureLayout fault which) s Q R := by
  unfold ensureLayout
  rw [ends_bind]
  apply ends_perform (hfails .mkdirRoot)
  intro _
  rw [ends_bind]
  apply ends_perform (hfails .checkRoot)
  intro _
  rw [ends_bind]
  apply ends_perform (hfails .mkdirJobs)
  intro _
  exact ends_perform (hfails .mkdirQuarantine) fun _ => hworks

/-! ## How `stage_capture` ends -/

/-- The operations of `stage_capture`. -/
def FsOp.isStaging : FsOp → Bool
  | .stageLayout _ | .create | .write _ | .fsync | .close => true
  | _ => false

/-- The bytes that a chunk adds to the part, in as many writes as it takes. -/
theorem ends_writeAll (hunused : store.quarantine.lookup uploadId = none) :
    ∀ {rounds left offset m : Nat}, left ≤ rounds →
      Ends (writeAll fault accepts uploadId rounds offset left) (store.withPart uploadId m)
        (fun _ t => t = store.withPart uploadId (m + left))
        fun _ t => (∃ offset, fault = some (.write offset)) ∧ ∃ n, t = store.withPart uploadId n := by
  intro rounds
  induction rounds with
  | zero =>
    intro left offset m hleft
    obtain rfl : left = 0 := Nat.le_zero.mp hleft
    exact ends_pure.mpr rfl
  | succ rounds ih =>
    intro left offset m hleft
    cases left with
    | zero => exact ends_pure.mpr rfl
    | succ left =>
      rw [writeAll, ends_bind]
      apply ends_perform
      · intro hfault
        exact ⟨⟨offset, hfault⟩, m, rfl⟩
      · intro _
        rw [JobStore.growPart_withPart hunused]
        apply (ih (by omega)).mono
        · intro _ t ht
          rw [ht]
          congr 1
          omega
        · intro _ _ h
          exact h

theorem ends_drawChunk (hunused : store.quarantine.lookup uploadId = none) {maxBytes : Nat}
    (drawing : Drawing) (chunk : List UInt8)
    (h : s = store.withPart uploadId drawing.staging.size) :
    Ends (drawChunk fault accepts uploadId maxBytes drawing chunk) s
      (fun drawn t => drawing.draw maxBytes chunk = .ok drawn ∧
        t = store.withPart uploadId drawn.staging.size)
      fun e t => (∃ d, drawing.draw maxBytes chunk = .error d ∧
          e = .intake d ∧ ∃ n, t = store.withPart uploadId n) ∨
        (∃ offset, fault = some (.write offset)) ∧ ∃ n, t = store.withPart uploadId n := by
  unfold drawChunk
  rw [ends_bind, ends_raising]
  constructor
  · intro drawn hdrawn
    rw [ends_bind, h]
    apply (ends_writeAll hunused (Nat.le_refl _)).mono
    · intro _ t ht
      rw [ends_pure]
      exact ⟨hdrawn, by rw [ht, Drawing.size_draw hdrawn]⟩
    · intro e t hfault
      exact Or.inr hfault
  · intro d hd
    exact Or.inl ⟨d, hd, rfl, drawing.staging.size, h⟩

/-- How `stage_capture` raises: with the part in quarantine if it cannot be closed, and else with
nothing left, because of an operation or as it does on a disk that works. -/
inductive Unstaged (fault : Option FsOp) (host : Host) (store : JobStore) (token : Token)
    (maxBytes : Nat) (chunks : List (List UInt8)) : Raised → JobStore → Prop
  | left {e : Raised} {n : Nat} : fault = some .close →
      store.quarantine.lookup (uploadIdOf token) = none →
      Unstaged fault host store token maxBytes chunks e (store.withPart (uploadIdOf token) n)
  | failed {e : Raised} {op : FsOp} : fault = some op → op.isStaging = true → op ≠ .close →
      Unstaged fault host store token maxBytes chunks e store
  | refused {e : IntakeError} :
      (fault = some .close → store.quarantine.lookup (uploadIdOf token) ≠ none) →
      store.stageCapture host token maxBytes chunks = .error e →
      Unstaged fault host store token maxBytes chunks (.intake e) store

/-- The handler removes the part, whatever is in it, if it can close it. -/
theorem ends_giveUp {maxBytes n : Nat} {chunks : List (List UInt8)} {e : Raised}
    {Q : Staging → JobStore → Prop} (hunused : store.quarantine.lookup (uploadIdOf token) = none)
    (he : fault ≠ some .close → Unstaged fault host store token maxBytes chunks e store) :
    Ends (giveUp fault (uploadIdOf token) e) (store.withPart (uploadIdOf token) n) Q
      (Unstaged fault host store token maxBytes chunks) := by
  unfold giveUp
  rw [ends_bind]
  apply ends_perform
  · intro hclose
    exact .left hclose hunused
  · intro hclose
    rw [ends_bind, ends_modify, ends_throw, id, JobStore.dropStaged_withPart hunused]
    exact he hclose

/-- Without a failure of its own, `stage_capture` does what it does on a disk that works. -/
theorem ends_stageCapture (maxBytes : Nat) (chunks : List (List UInt8)) :
    Ends (stageCapture fault host accepts token maxBytes chunks) store
      (fun upload t => fault ≠ some .close ∧
        store.stageCapture host token maxBytes chunks = .ok (upload, t))
      (Unstaged fault host store token maxBytes chunks) := by
  unfold stageCapture
  rw [ends_bind]
  apply ends_ensureLayout
  · intro op hfault
    exact .failed hfault rfl (by simp)
  rw [ends_bind]
  unfold createPart
  rw [ends_bind, ends_get]
  by_cases hcreate : fault = some .create ∨ (store.quarantine.lookup (uploadIdOf token)).isSome = true
  · rw [if_pos hcreate, ends_throw]
    rcases hcreate with hfault | hused
    · exact .failed hfault rfl (by simp)
    · apply Unstaged.refused
      · intro _ hnone
        rw [hnone] at hused
        exact absurd hused (by simp)
      · rw [stageCapture_eq_draw, if_pos hused]
  rw [if_neg hcreate]
  obtain ⟨hworks, hunused⟩ := not_or.mp hcreate
  have hnone : store.quarantine.lookup (uploadIdOf token) = none :=
    Option.not_isSome_iff_eq_none.mp hunused
  rw [ends_modify, ends_bind, ends_tryCatch, ends_bind]
  apply (ends_foldlM (fun drawing chunk s => ends_drawChunk hnone drawing chunk) rfl).mono
  · rintro drawing t ⟨hdrawing, rfl⟩
    rw [ends_bind]
    apply ends_perform
    · intro hfsync
      exact ends_giveUp hnone fun _ => .failed hfsync rfl (by simp)
    intro _
    rw [ends_pure, ends_bind]
    apply ends_perform
    · intro hclose
      exact .left hclose hnone
    intro hclose
    have hstaged : store.stageCapture host token maxBytes chunks =
        store.endStaging host (uploadIdOf token) drawing.staging := by
      rw [stageCapture_eq_draw, if_neg hunused, hdrawing]
      rfl
    unfold JobStore.endStaging at hstaged
    by_cases hempty : drawing.staging.size = 0
    · rw [if_pos hempty] at hstaged ⊢
      rw [ends_bind, ends_modify, ends_throw, id, id, JobStore.dropStaged_withPart hnone]
      exact .refused (fun h => absurd h hclose) hstaged
    · rw [if_neg hempty] at hstaged ⊢
      exact ends_pure.mpr ⟨hclose, hstaged⟩
  · rintro e t (⟨d, hd, rfl, n, rfl⟩ | ⟨⟨offset, hwrite⟩, n, rfl⟩)
    · have hrefused : store.stageCapture host token maxBytes chunks = .error d := by
        rw [stageCapture_eq_draw, if_neg hunused, hd]
        rfl
      exact ends_giveUp hnone fun hclose => .refused (fun h => absurd h hclose) hrefused
    · exact ends_giveUp hnone fun _ => .failed hwrite rfl (by simp)

/-! ## How `commit_staged` ends -/

/-- The operations of `commit_staged` after its handler. -/
def FsOp.isAfterHandler : FsOp → Bool
  | .mkdirArtifacts | .writeStatus _ | .replaceStatus => true
  | _ => false

/-- How `commit_staged` raises: with the job directory and the capture in it, or with all as before
up to the part, because of an operation or as it does on a disk that works. -/
inductive Uncommitted (fault : Option FsOp) (host : Host) (store : JobStore)
    (uploadId : Identifier) (job : CaptureJob) : Raised → JobStore → Prop
  | left {e : Raised} {op : FsOp} {n : Nat} {committed : JobStore} : fault = some op →
      op.isAfterHandler = true → store.commitStaged host uploadId job = .ok committed →
      Uncommitted fault host store uploadId job e
        ((store.dropStaged uploadId).withEntry ⟨job.runId.text, none, n⟩)
  | failed {e : Raised} {op : FsOp} {t : JobStore} : fault = some op → op.isStaging = false →
      op.isAfterHandler = false → t.dropStaged uploadId = store.dropStaged uploadId →
      Uncommitted fault host store uploadId job e t
  | refused {e : IntakeError} : store.commitStaged host uploadId job = .error e →
      Uncommitted fault host store uploadId job (.intake e) store

theorem FsOp.isAfterHandler_of_isStaging {op : FsOp} (h : op.isStaging = true) :
    op.isAfterHandler = false := by
  cases op <;> first | rfl | cases h

theorem ends_checkRoom : Ends (checkRoom fault uploadId) store
    (fun size t => t = store ∧ store.quarantine.lookup uploadId = some size ∧
      store.entries.length < store.maxJobs ∧ store.usageBytes + size ≤ store.maxDataBytes)
    (Uncommitted fault host store uploadId job) := by
  unfold checkRoom
  rw [ends_bind]
  apply ends_perform
  · intro hfault
    exact .failed hfault rfl rfl rfl
  intro _
  rw [ends_bind, ends_get, id]
  cases hpart : store.quarantine.lookup uploadId with
  | none =>
    apply ends_throw.mpr
    apply Uncommitted.refused
    simp [JobStore.commitStaged, hpart]
  | some size =>
    dsimp only
    rw [ends_bind]
    apply ends_perform
    · intro hfault
      exact .failed hfault rfl rfl rfl
    intro _
    by_cases hjobs : store.maxJobs ≤ store.entries.length
    · rw [if_pos hjobs, ends_throw]
      apply Uncommitted.refused
      simp [JobStore.commitStaged, hpart, hjobs]
    rw [if_neg hjobs, ends_bind]
    apply ends_perform
    · intro hfault
      exact .failed hfault rfl rfl rfl
    intro _
    rw [ends_bind]
    apply ends_perform
    · intro hfault
      exact .failed hfault rfl rfl rfl
    intro _
    by_cases hbytes : store.maxDataBytes < store.usageBytes + size
    · rw [if_pos hbytes, ends_throw]
      apply Uncommitted.refused
      simp [JobStore.commitStaged, hpart, hjobs, hbytes]
    · rw [if_neg hbytes, ends_pure]
      exact ⟨rfl, rfl, Nat.lt_of_not_le hjobs, Nat.le_of_not_lt hbytes⟩

/-- The text of the record, or some of it, is in the directory. -/
theorem ends_writeText {entry : JobEntry} {runId : Identifier} {bytes : Nat}
    (hfree : ∀ other ∈ s.entries, other.name ≠ runId.text) (hname : entry.name = runId.text) :
    Ends (writeText fault runId bytes) (s.withEntry entry)
      (fun _ t => (∀ written, fault ≠ some (.writeStatus written)) ∧
        t = s.withEntry { entry with bytes := entry.bytes + bytes })
      fun _ t => ∃ written, fault = some (.writeStatus written) ∧
        t = s.withEntry { entry with bytes := entry.bytes + min written bytes } := by
  unfold writeText
  split
  · rename_i written
    rw [ends_bind, ends_modify, ends_throw]
    exact ⟨written, rfl, JobStore.updateEntry_withEntry hfree hname _⟩
  · rename_i hother
    rw [ends_modify]
    exact ⟨fun written h => hother written h, JobStore.updateEntry_withEntry hfree hname _⟩

/-- Without a failure of its own, `commit_staged` does what it does on a disk that works. -/
theorem ends_commitStaged : Ends (commitStaged fault host uploadId job) store
    (fun committed t => committed = job ∧ (∀ op, fault = some op → op.isAfterHandler = false) ∧
      store.commitStaged host uploadId job = .ok t)
    (Uncommitted fault host store uploadId job) := by
  unfold commitStaged
  rw [ends_bind]
  apply ends_ensureLayout
  · intro op hfault
    exact .failed hfault rfl rfl rfl
  rw [ends_bind]
  have hchecked : Ends (checkRoom fault uploadId) store _
      (Uncommitted fault host store uploadId job) := ends_checkRoom
  apply hchecked.mono
  · rintro size t ⟨rfl, hpart, hjobs, hbytes⟩
    rw [ends_bind]
    unfold makeJobDir
    rw [ends_bind, ends_get]
    by_cases hname : t.entries.any (·.name = job.runId.text) = true
    · rw [if_pos hname, ends_throw]
      apply Uncommitted.refused
      simp [JobStore.commitStaged, hpart, Nat.not_le.mpr hjobs, Nat.not_lt.mpr hbytes, hname]
    rw [if_neg hname]
    have hfree : ∀ entry ∈ t.entries, entry.name ≠ job.runId.text := by
      simpa [List.any_eq_true] using hname
    apply ends_perform
    · intro hfault
      exact .failed hfault rfl rfl rfl
    intro _
    have hcommitted : ∃ committed, t.commitStaged host uploadId job = .ok committed ∧
        committed = (t.dropStaged uploadId).withEntry
          ⟨job.runId.text, some job.serialized, size + host.statusBytes job⟩ := by
      simp [JobStore.commitStaged, hpart, Nat.not_le.mpr hjobs, Nat.not_lt.mpr hbytes, hname]
      rfl
    obtain ⟨committed, hcommitted, rfl⟩ := hcommitted
    have hdropped : ∀ entry ∈ (t.dropStaged uploadId).entries, entry.name ≠ job.runId.text := hfree
    have hmoved : ((t.mkdirJob job.runId).dropStaged uploadId).growEntry job.runId size =
        (t.dropStaged uploadId).withEntry ⟨job.runId.text, none, size⟩ := by
      unfold JobStore.mkdirJob JobStore.growEntry
      rw [JobStore.dropStaged_withEntry, JobStore.updateEntry_withEntry hdropped rfl, Nat.zero_add]
    rw [ends_bind, ends_tryCatch, ends_bind]
    apply ends_perform
    · intro hfault
      rw [ends_bind, ends_modify, ends_throw]
      apply Uncommitted.failed hfault rfl rfl
      rw [JobStore.mkdirJob, JobStore.removeTree_withEntry hfree rfl]
    intro _
    rw [hmoved]
    apply ends_perform
    · intro hfault
      rw [ends_bind, ends_modify, ends_throw]
      apply Uncommitted.failed hfault rfl rfl
      rw [JobStore.removeTree_withEntry hdropped rfl, JobStore.dropStaged_dropStaged]
    intro _
    -- From here on the directory stays.
    rw [ends_bind]
    apply ends_perform
    · intro hfault
      exact .left hfault rfl hcommitted
    intro hartifacts
    rw [ends_bind]
    unfold writeStatus
    rw [ends_bind]
    apply (ends_writeText hdropped rfl).mono
    · rintro _ t' ⟨hwrite, rfl⟩
      apply ends_perform
      · intro hfault
        exact .left hfault rfl hcommitted
      · intro hreplace
        rw [ends_pure, JobStore.updateEntry_withEntry hdropped rfl]
        refine ⟨rfl, ?_, hcommitted⟩
        intro op hfault
        cases op with
        | mkdirArtifacts => exact absurd hfault hartifacts
        | writeStatus written => exact absurd hfault (hwrite written)
        | replaceStatus => exact absurd hfault hreplace
        | _ => rfl
    · rintro e t' ⟨written, hfault, rfl⟩
      exact .left hfault rfl hcommitted
  · intro e t h
    exact h

/-! ## How `ingest_capture` ends -/

/-- Nothing of an upload remains, and the jobs and the usage are what they were. -/
structure LeftAsBefore (store after : JobStore) : Prop where
  noDirectory : ∀ entry ∈ after.entries, entry ∈ store.entries
  noPart : ∀ file ∈ after.quarantine, file ∈ store.quarantine
  listed : ∀ job, job ∈ after.listJobs ↔ job ∈ store.listJobs
  usage : after.usageBytes = store.usageBytes

theorem LeftAsBefore.refl (store : JobStore) : LeftAsBefore store store where
  noDirectory _ h := h
  noPart _ h := h
  listed _ := Iff.rfl
  usage := rfl

theorem not_leftAsBefore_withPart {n : Nat} (h : store.quarantine.lookup uploadId = none) :
    ¬ LeftAsBefore store (store.withPart uploadId n) := by
  intro hleft
  have hmem := hleft.noPart (uploadId, n) (List.mem_cons_self ..)
  exact JobStore.ne_of_lookup_eq_none h _ hmem rfl

theorem not_leftAsBefore_withEntry {entry : JobEntry}
    (hfree : ∀ other ∈ store.entries, other.name ≠ entry.name) :
    ¬ LeftAsBefore store (store.withEntry entry) := by
  intro hleft
  have hmem := hleft.noDirectory entry (List.mem_cons_self ..)
  exact hfree entry hmem rfl

/-- An intake comes to the job directory and makes it. -/
def Commits (host : Host) (store : JobStore) (request : CaptureIntakeRequest)
    (token runToken : Token) : Prop :=
  request.Acceptable ∧ store.quarantine.lookup (uploadIdOf token) = none ∧
    store.reusable (request.key (host.sha256 request.contents)) = [] ∧ request.CaseNamed ∧
    HasRoom (store.withStaged request token) (uploadOf host request token) (runIdOf runToken)

/-- An intake comes to an operation that no handler covers. -/
def Unguarded (host : Host) (store : JobStore) (request : CaptureIntakeRequest)
    (token runToken : Token) : FsOp → Prop
  | .close =>
    (∃ filename format, basename request.originalFilename = .ok filename ∧
      captureFormatForFilename filename = .ok format) ∧
      store.quarantine.lookup (uploadIdOf token) = none
  | .mkdirArtifacts | .writeStatus _ | .replaceStatus => Commits host store request token runToken
  | _ => False

/-- The operation that fails, if there is one, has a handler or is not come to. -/
def Guarded (fault : Option FsOp) (host : Host) (store : JobStore) (request : CaptureIntakeRequest)
    (token runToken : Token) : Prop :=
  ∀ op, fault = some op → ¬ Unguarded host store request token runToken op

theorem unguarded_iff_of_isAfterHandler {op : FsOp} (h : op.isAfterHandler = true) :
    Unguarded host store request token runToken op ↔ Commits host store request token runToken := by
  cases op <;> first | exact Iff.rfl | cases h

theorem not_unguarded {op : FsOp} (hclose : op ≠ .close) (h : op.isAfterHandler = false) :
    ¬ Unguarded host store request token runToken op := by
  intro hop
  cases op <;> first | exact hclose rfl | exact hop | cases h

/-- An operation without a handler is come to with a fit name and an unused part. -/
theorem Unguarded.staged {op : FsOp} (h : Unguarded host store request token runToken op) :
    (∃ filename format, basename request.originalFilename = .ok filename ∧
      captureFormatForFilename filename = .ok format) ∧
      store.quarantine.lookup (uploadIdOf token) = none := by
  by_cases hclose : op = .close
  · rw [hclose] at h
    exact h
  cases hafter : op.isAfterHandler with
  | false => exact absurd h (not_unguarded hclose hafter)
  | true =>
    obtain ⟨⟨filename, format, hname, hformat, -⟩, hunused, -⟩ :=
      (unguarded_iff_of_isAfterHandler hafter).mp h
    exact ⟨⟨filename, format, hname, hformat⟩, hunused⟩

theorem guarded_of_not_commits (hclose : fault ≠ some .close)
    (h : ¬ Commits host store request token runToken) :
    Guarded fault host store request token runToken := by
  rintro op rfl hop
  cases hafter : op.isAfterHandler with
  | true => exact h ((unguarded_iff_of_isAfterHandler hafter).mp hop)
  | false => exact not_unguarded (fun heq => hclose (congrArg some heq)) hafter hop

/-- An upload that is staged has been read whole. -/
theorem of_stageCapture_eq_ok {upload : StagedCapture} {t : JobStore}
    (h : store.stageCapture host token request.maxCaptureBytes request.chunks = .ok (upload, t)) :
    store.quarantine.lookup (uploadIdOf token) = none ∧
      request.contents.length ≤ request.maxCaptureBytes ∧ 0 < request.contents.length ∧
      upload = uploadOf host request token ∧ t = store.withStaged request token := by
  rw [stageCapture_eq] at h
  by_cases htoken : (store.quarantine.lookup (uploadIdOf token)).isSome = true
  · simp [htoken] at h
  by_cases htoo : request.maxCaptureBytes < request.contents.length
  · simp [htoken, htoo] at h
  by_cases hempty : request.contents.length = 0
  · simp [htoken, hempty] at h
  simp only [htoken, htoo, hempty, Bool.false_eq_true, if_false, Except.ok.injEq,
    Prod.mk.injEq] at h
  exact ⟨Option.not_isSome_iff_eq_none.mp htoken, Nat.le_of_not_lt htoo, Nat.pos_of_ne_zero hempty,
    h.1.symm, h.2.symm⟩

/-- A duplicate that is found may be reused. -/
theorem isReusable_of_findDuplicate {key : CaptureKey} {duplicate : CaptureJob}
    (h : store.findDuplicate key = some duplicate) : duplicate.isReusable = true := by
  have hanswers := answers_of_mem_reusable (mem_reusable_of_findDuplicate h)
  simp only [CaptureJob.answers, Bool.and_eq_true] at hanswers
  exact hanswers.2

theorem filter_findDuplicate (key : CaptureKey) :
    (store.findDuplicate key).filter (·.isReusable) = store.findDuplicate key := by
  cases hfound : store.findDuplicate key with
  | none => rfl
  | some duplicate => simp [Option.filter, isReusable_of_findDuplicate hfound]

/-- How an intake raises: with something left, because of an operation that no handler covers, or
with the store as it was. -/
inductive Raises (fault : Option FsOp) (host : Host) (store : JobStore)
    (request : CaptureIntakeRequest) (token runToken : Token) : JobStore → Prop
  | left {op : FsOp} {t : JobStore} : fault = some op →
      Unguarded host store request token runToken op → ¬ LeftAsBefore store t →
      Raises fault host store request token runToken t
  | restored : Guarded fault host store request token runToken →
      Raises fault host store request token runToken store

/-- The upload of a request, with the `finally` that follows. -/
theorem ends_ingestStaged {filename : String} {format : CaptureFormat}
    (hname : basename request.originalFilename = .ok filename)
    (hformat : captureFormatForFilename filename = .ok format) (hclose : fault ≠ some .close)
    (hunused : store.quarantine.lookup (uploadIdOf token) = none)
    (hfits : request.contents.length ≤ request.maxCaptureBytes)
    (hpos : 0 < request.contents.length) :
    Ends (ingestStaged fault host request format (uploadOf host request token) runToken now)
      (store.withStaged request token)
      (fun _ _ => Guarded fault host store request token runToken)
      fun _ t => Raises fault host store request token runToken (t.dropStaged (uploadIdOf token)) := by
  have hdropped : (store.withStaged request token).dropStaged (uploadIdOf token) = store :=
    JobStore.dropStaged_withPart hunused
  have hrefused : ¬ Commits host store request token runToken →
      Raises fault host store request token runToken
        ((store.withStaged request token).dropStaged (uploadIdOf token)) := by
    intro h
    rw [hdropped]
    exact .restored (guarded_of_not_commits hclose h)
  unfold ingestStaged
  rw [ends_bind, ends_raising]
  constructor
  · intro _ hmagic
    have haccept : request.Acceptable := ⟨filename, format, hname, hformat, hpos, hfits, hmagic⟩
    rw [ends_bind, ends_get, filter_findDuplicate]
    cases hfound : (store.withStaged request token).findDuplicate
        (request.key (uploadOf host request token).sha256) with
    | some duplicate =>
      have hmem := mem_reusable_of_findDuplicate hfound
      dsimp only
      unfold abortStaged
      rw [ends_bind, ends_modify, ends_pure]
      apply guarded_of_not_commits hclose
      rintro ⟨-, -, hnone, -⟩
      have hmem' : duplicate ∈ store.reusable (request.key (host.sha256 request.contents)) := hmem
      rw [hnone] at hmem'
      cases hmem'
    | none =>
      have hnone : store.reusable (request.key (host.sha256 request.contents)) = [] :=
        findDuplicate_eq_none_iff.mp hfound
      dsimp only
      rw [ends_bind, ends_raising]
      constructor
      · intro job hjob
        have hcase : request.CaseNamed := (newJob_eq_ok_iff haccept).mp ⟨job, hjob⟩
        have hrun : job.runId = runIdOf runToken := (of_newJob_eq_ok hjob).1
        have hpart : (store.withStaged request token).quarantine.lookup
            (uploadOf host request token).uploadId = some (uploadOf host request token).sizeBytes :=
          List.lookup_cons_self
        apply ends_commitStaged.mono
        · rintro _ _ ⟨-, hop, -⟩ op hfault
          exact not_unguarded (fun heq => hclose (hfault.trans (congrArg some heq))) (hop op hfault)
        · intro e t hraised
          cases hraised with
          | left hfault hafter hcommit =>
            have hroom := (of_commitStaged_eq_ok hpart hcommit).1
            have hcommits : Commits host store request token runToken :=
              ⟨haccept, hunused, hnone, hcase, hrun ▸ hroom⟩
            apply Raises.left hfault ((unguarded_iff_of_isAfterHandler hafter).mpr hcommits)
            show ¬ LeftAsBefore store ((((store.withStaged request token).dropStaged
              (uploadIdOf token)).withEntry _).dropStaged (uploadIdOf token))
            rw [JobStore.dropStaged_withEntry, JobStore.dropStaged_dropStaged, hdropped]
            exact not_leftAsBefore_withEntry hroom.2.2
          | failed hfault hstaging hafter hsame =>
            have hrestored : t.dropStaged (uploadIdOf token) = store := hsame.trans hdropped
            rw [hrestored]
            apply Raises.restored
            intro op hop
            obtain rfl := Option.some.inj (hfault.symm.trans hop)
            exact not_unguarded (fun heq => hclose (hfault.trans (congrArg some heq))) hafter
          | refused hcommit =>
            apply hrefused
            rintro ⟨-, -, -, -, hroom⟩
            rw [← hrun] at hroom
            rw [commitStaged_eq_ok_of host hpart hroom] at hcommit
            cases hcommit
      · intro e hjob
        apply hrefused
        rintro ⟨-, -, -, hcase, -⟩
        obtain ⟨job, hjob'⟩ :
            ∃ job, newJob request (uploadOf host request token) runToken now = .ok job :=
          (newJob_eq_ok_iff haccept).mpr hcase
        rw [hjob] at hjob'
        cases hjob'
  · intro e hmagic
    apply hrefused
    rintro ⟨⟨filename', format', hname', hformat', -, -, hmagic'⟩, -⟩
    obtain rfl : filename = filename' := Except.ok.inj (hname.symm.trans hname')
    obtain rfl : format = format' := Except.ok.inj (hformat.symm.trans hformat')
    have hmagics := hmagic.symm.trans hmagic'
    cases hmagics

theorem ends_ingestCapture :
    Ends (ingestCapture fault host accepts request token runToken now) store
      (fun _ _ => Guarded fault host store request token runToken)
      fun _ t => Raises fault host store request token runToken t := by
  unfold ingestCapture
  rw [ends_bind, ends_raising]
  constructor
  · intro filename hname
    rw [ends_bind, ends_raising]
    constructor
    · intro format hformat
      rw [ends_bind]
      apply (ends_stageCapture request.maxCaptureBytes request.chunks).mono
      · rintro upload t ⟨hclose, hstaged⟩
        obtain ⟨hunused, hfits, hpos, rfl, rfl⟩ := of_stageCapture_eq_ok hstaged
        rw [ends_tryCatch]
        apply (ends_ingestStaged hname hformat hclose hunused hfits hpos).mono
        · intro _ _ hguarded
          exact hguarded
        · intro e t hraises
          unfold abortStaged
          rw [ends_bind, ends_modify, ends_throw]
          exact hraises
      · intro e t hraised
        cases hraised with
        | left hclose hunused =>
          exact .left hclose ⟨⟨filename, format, hname, hformat⟩, hunused⟩
            (not_leftAsBefore_withPart hunused)
        | failed hfault hstaging hclose =>
          apply Raises.restored
          intro op hop
          obtain rfl := Option.some.inj (hfault.symm.trans hop)
          exact not_unguarded hclose (FsOp.isAfterHandler_of_isStaging hstaging)
        | refused hused hrefused =>
          apply Raises.restored
          intro op hop hunguarded
          have hclose : fault ≠ some .close := fun h => hused h hunguarded.staged.2
          apply guarded_of_not_commits hclose _ op hop hunguarded
          rintro ⟨⟨_, _, _, _, hpos, hfits, _⟩, hunused, -⟩
          rw [stageCapture_eq, hunused] at hrefused
          simp [Nat.not_lt.mpr hfits, hpos.ne'] at hrefused
    · intro e hformat
      apply Raises.restored
      intro op _ hunguarded
      obtain ⟨⟨filename', format, hname', hformat'⟩, -⟩ := hunguarded.staged
      obtain rfl : filename = filename' := Except.ok.inj (hname.symm.trans hname')
      have hformats := hformat.symm.trans hformat'
      cases hformats
  · intro e hname
    apply Raises.restored
    intro op _ hunguarded
    obtain ⟨⟨filename, format, hname', -⟩, -⟩ := hunguarded.staged
    have hnames := hname.symm.trans hname'
    cases hnames

/-- **An intake that fails leaves something exactly if no handler covers the operation that
failed.** The right side speaks of what the intake comes to, in the store as it was before. -/
theorem intake_restores_iff {op : FsOp} :
    (∀ error after, outcome (ingestCapture (some op) host accepts request token runToken now) store =
        (.error error, after) → LeftAsBefore store after) ↔
      ¬ Unguarded host store request token runToken op := by
  constructor
  · intro hrestores hop
    have hends : Ends (ingestCapture (some op) host accepts request token runToken now) store _ _ :=
      ends_ingestCapture
    apply Ends.elim hends
    · intro job after _ hguarded
      exact hguarded op rfl hop
    · intro error after hended hraises
      have hbefore := hrestores error after hended
      clear hended
      cases hraises with
      | left _ _ hleft => exact hleft hbefore
      | restored hguarded => exact hguarded op rfl hop
  · intro hop error after hended
    have hraises := Ends.raised ends_ingestCapture hended
    clear hended
    cases hraises with
    | left hfault hunguarded _ =>
      obtain rfl := Option.some.inj hfault
      exact absurd hunguarded hop
    | restored _ => exact LeftAsBefore.refl store

/-- An upload of six bytes whose `artifacts` cannot be made: no job is listed, and the directory counts
with the capture in it. -/
theorem unmade_artifacts_leave_directory :
    ∃ after, outcome (ingestCapture (some .mkdirArtifacts) uploadHost (fun _ => 0) pcapngUpload tokenA
        tokenB 0) {} = (.error (.os .mkdirArtifacts), after) ∧
      after.entries = [⟨(runIdOf tokenB).text, none, 6⟩] ∧ after.listJobs = [] ∧
      after.usageBytes = 6 ∧ ({} : JobStore).usageBytes = 0 ∧ ¬ LeftAsBefore {} after := by
  have hrun : (match outcome (ingestCapture (some .mkdirArtifacts) uploadHost (fun _ => 0)
      pcapngUpload tokenA tokenB 0) {} with
    | (.error e, after) => decide (e = .os .mkdirArtifacts ∧
        after.entries = [⟨(runIdOf tokenB).text, none, 6⟩] ∧ after.listJobs = [] ∧
        after.usageBytes = 6)
    | (.ok _, _) => false) = true := by decide +kernel
  rcases hended : outcome (ingestCapture (some .mkdirArtifacts) uploadHost (fun _ => 0) pcapngUpload
    tokenA tokenB 0) {} with ⟨e | job, after⟩
  · rw [hended] at hrun
    obtain ⟨rfl, hentries, hlisted, husage⟩ := of_decide_eq_true hrun
    refine ⟨after, rfl, hentries, hlisted, husage, rfl, ?_⟩
    intro hleft
    have hsame := hleft.usage
    rw [husage] at hsame
    cases hsame
  · rw [hended] at hrun
    cases hrun

/-! ## On a disk that works -/

/-- The steps of one intake with nobody in between, those that it does not come to left out. -/
def ingestAlone (host : Host) (store : JobStore) (request : CaptureIntakeRequest)
    (token runToken : Token) (now : Int) : JobStore × IntakeProgress :=
  [.stage token, .search, .commit runToken now, .abort].foldl
    (fun s action => (advance host request s.1 s.2 action).getD s) (store, .called)

section

variable {upload : StagedCapture} {error : IntakeError} {staged committed : JobStore}

theorem ingestAlone_of_stage_error (h : stage host store request token = .error error) :
    ingestAlone host store request token runToken now = (store, .returned (.error error)) := by
  have hstage : advance host request store .called (.stage token) =
      some (store, .returned (.error error)) := by
    unfold advance
    dsimp only
    rw [h]
  unfold ingestAlone
  rw [List.foldl_cons, hstage]
  rfl

theorem ingestAlone_of_unfit (h : stage host store request token = .ok (upload, .error error, staged)) :
    ingestAlone host store request token runToken now =
      (staged.dropStaged upload.uploadId, .returned (.error error)) := by
  have hstage : advance host request store .called (.stage token) =
      some (staged, .leaving upload (.error error)) := by
    unfold advance
    dsimp only
    rw [h]
  unfold ingestAlone
  rw [List.foldl_cons, hstage]
  rfl

theorem advance_stage (h : stage host store request token = .ok (upload, .ok (), staged)) :
    advance host request store .called (.stage token) = some (staged, .staged upload) := by
  unfold advance
  dsimp only
  rw [h]

theorem ingestAlone_of_hit {duplicate : CaptureJob}
    (hstage : stage host store request token = .ok (upload, .ok (), staged))
    (h : staged.findDuplicate (request.key upload.sha256) = some duplicate) :
    ingestAlone host store request token runToken now =
      (staged.dropStaged upload.uploadId, .returned (.ok duplicate)) := by
  have hsearch : advance host request staged (.staged upload) .search =
      some (staged, .leaving upload (.ok duplicate)) := by
    unfold advance
    dsimp only
    rw [h]
    exact if_pos (isReusable_of_findDuplicate h)
  unfold ingestAlone
  rw [List.foldl_cons, advance_stage hstage, Option.getD_some, List.foldl_cons, hsearch]
  rfl

/-- An intake that finds no duplicate goes on to its commit. -/
theorem ingestAlone_of_miss (hstage : stage host store request token = .ok (upload, .ok (), staged))
    (h : staged.findDuplicate (request.key upload.sha256) = none)
    {next : JobStore × IntakeProgress}
    (hcommit : advance host request staged (.missed upload) (.commit runToken now) = some next) :
    ingestAlone host store request token runToken now =
      (advance host request next.1 next.2 .abort).getD next := by
  have hsearch : advance host request staged (.staged upload) .search =
      some (staged, .missed upload) := by
    unfold advance
    dsimp only
    rw [h]
  unfold ingestAlone
  rw [List.foldl_cons, advance_stage hstage, Option.getD_some, List.foldl_cons, hsearch,
    Option.getD_some, List.foldl_cons, hcommit, Option.getD_some, List.foldl_cons, List.foldl_nil]

theorem advance_commit_of_newJob_error (h : newJob request upload runToken now = .error error) :
    advance host request staged (.missed upload) (.commit runToken now) =
      some (staged, .leaving upload (.error error)) := by
  unfold advance
  dsimp only
  rw [h]

theorem advance_commit (hjob : newJob request upload runToken now = .ok job) :
    advance host request staged (.missed upload) (.commit runToken now) =
      match staged.commitStaged host upload.uploadId job with
      | .error e => some (staged, .leaving upload (.error e))
      | .ok committed => some (committed, .returned (.ok job)) := by
  unfold advance
  dsimp only
  cases hcommit : staged.commitStaged host upload.uploadId job with
  | error e => simp only [hjob, hcommit]
  | ok committed => simp only [hjob, hcommit]

/-- What an intake with a fit name stages. -/
theorem stage_of_named {filename : String} {format : CaptureFormat}
    (hname : basename request.originalFilename = .ok filename)
    (hformat : captureFormatForFilename filename = .ok format) :
    stage host store request token =
      (store.stageCapture host token request.maxCaptureBytes request.chunks).map fun staged =>
        (staged.1, validateMagic staged.1.header format, staged.2) := by
  unfold stage
  simp only [hname, hformat, bind, Except.bind]
  cases store.stageCapture host token request.maxCaptureBytes request.chunks <;> rfl

/-- The upload of a request on a disk that works, with the `finally` that follows. -/
theorem ends_ingestStaged_none {format : CaptureFormat}
    (hstage : stage host store request token =
      .ok (upload, validateMagic upload.header format, staged)) :
    Ends (ingestStaged none host request format upload runToken now) staged
      (fun job t => ingestAlone host store request token runToken now = (t, .returned (.ok job)))
      fun e t => ∃ error, e = .intake error ∧
        ingestAlone host store request token runToken now =
          (t.dropStaged upload.uploadId, .returned (.error error)) := by
  unfold ingestStaged
  rw [ends_bind, ends_raising]
  constructor
  · intro _ hmagic
    rw [hmagic] at hstage
    rw [ends_bind, ends_get, filter_findDuplicate]
    cases hfound : staged.findDuplicate (request.key upload.sha256) with
    | some duplicate =>
      dsimp only
      unfold abortStaged
      rw [ends_bind, ends_modify, ends_pure]
      exact ingestAlone_of_hit hstage hfound
    | none =>
      dsimp only
      rw [ends_bind, ends_raising]
      constructor
      · intro job hjob
        have hcommit : advance host request staged (.missed upload) (.commit runToken now) = _ :=
          advance_commit hjob
        apply ends_commitStaged.mono
        · rintro _ t ⟨rfl, -, hcommitted⟩
          rw [hcommitted] at hcommit
          exact ingestAlone_of_miss hstage hfound hcommit
        · intro e t hraised
          cases hraised with
          | left hfault => cases hfault
          | failed hfault => cases hfault
          | refused hrefused =>
            rw [hrefused] at hcommit
            exact ⟨_, rfl, ingestAlone_of_miss hstage hfound hcommit⟩
      · intro e hjob
        exact ⟨e, rfl, ingestAlone_of_miss hstage hfound (advance_commit_of_newJob_error hjob)⟩
  · intro e hmagic
    rw [hmagic] at hstage
    exact ⟨e, rfl, ingestAlone_of_unfit hstage⟩

/-- **On a disk that works the operations of an intake do what its steps do.** It ties the two
models of an intake, the one with failing operations and the one in steps. -/
theorem ends_ingestCapture_none :
    Ends (ingestCapture none host accepts request token runToken now) store
      (fun job t => ingestAlone host store request token runToken now = (t, .returned (.ok job)))
      fun e t => ∃ error, e = .intake error ∧
        ingestAlone host store request token runToken now = (t, .returned (.error error)) := by
  unfold ingestCapture
  rw [ends_bind, ends_raising]
  constructor
  · intro filename hname
    rw [ends_bind, ends_raising]
    constructor
    · intro format hformat
      have hstage : stage host store request token = _ := stage_of_named hname hformat
      rw [ends_bind]
      apply (ends_stageCapture request.maxCaptureBytes request.chunks).mono
      · rintro upload staged ⟨-, hstaged⟩
        rw [hstaged, Except.map] at hstage
        rw [ends_tryCatch]
        apply (ends_ingestStaged_none hstage).mono
        · intro _ _ h
          exact h
        · intro e t h
          unfold abortStaged
          rw [ends_bind, ends_modify, ends_throw]
          exact h
      · intro e t hraised
        cases hraised with
        | left hfault => cases hfault
        | failed hfault => cases hfault
        | refused _ hrefused =>
          rw [hrefused] at hstage
          exact ⟨_, rfl, ingestAlone_of_stage_error hstage⟩
    · intro e hformat
      refine ⟨e, rfl, ingestAlone_of_stage_error ?_⟩
      simp [stage, hname, hformat, bind, Except.bind]
  · intro e hname
    refine ⟨e, rfl, ingestAlone_of_stage_error ?_⟩
    simp [stage, hname, bind, Except.bind]

end

end

end Faulty
end Jobs
end SecureMail
