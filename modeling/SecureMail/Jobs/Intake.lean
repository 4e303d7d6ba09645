import SecureMail.Evidence.Run
import SecureMail.Jobs.Identifier
import SecureMail.Jobs.Store
import SecureMail.Lib.SortKey

/-!
# Intake

`ingest_capture` streams an upload into quarantine, looks for a job of the same capture, and moves
the upload into a job of its own if there is none. Each of the three is a function of the store as
it finds it. Nothing keeps the store still in between, and intakes run in the threads of the
server.

The three are written one after another, without a state that belongs to the call, so that the same
functions serve two readings: composed they are `ingest_capture` when nobody comes in between, and
taken one at a time they are the steps of `Jobs.Idempotence`.

What comes from outside is a parameter: the digest of the bytes, the size of a record as JSON, the
random names and the clock. A name is a step's argument and not a function of the store, so that no
statement can rely on a new name being new; where that is needed it is said.
-/

namespace SecureMail
namespace Jobs

open Py

inductive CaptureFormat
  | pcap | pcapng
deriving DecidableEq, Repr

/-- The errors of an intake. The server answers 400 to them, 413 to `captureTooLarge` and 503 to
the two limits of the store. -/
inductive IntakeError
  | filenameMissing
  | filenameTooLong
  | unknownExtension
  | captureTooLarge (maxBytes : Nat)
  | cannotCreate
  | captureEmpty
  | captureTruncated
  | notPcapngMagic
  | notPcapMagic
  | invalidCaseId
  | stagedMissing
  | tooManyJobs (maxJobs : Nat)
  | tooManyBytes (maxDataBytes : Nat)
  | duplicateRunId
deriving DecidableEq, Repr

def IntakeError.text : IntakeError → String
  | .filenameMissing => "capture filename is missing"
  | .filenameTooLong => "capture filename is too long"
  | .unknownExtension => "capture must be a .pcap or .pcapng file"
  | .captureTooLarge maxBytes => s!"capture exceeds {maxBytes} bytes"
  | .cannotCreate => "cannot create quarantine file"
  | .captureEmpty => "capture is empty"
  | .captureTruncated => "capture is empty or truncated"
  | .notPcapngMagic => "file extension does not match PCAPNG magic"
  | .notPcapMagic => "file extension does not match PCAP magic"
  | .invalidCaseId => "case_id is not a valid identifier"
  | .stagedMissing => "staged capture is missing"
  | .tooManyJobs maxJobs => s!"job catalog exceeds {maxJobs} entries"
  | .tooManyBytes maxDataBytes => s!"data root exceeds {maxDataBytes} bytes"
  | .duplicateRunId => "duplicate run_id"

/-- `CaptureIntakeRequest`, with the upload. The chunks are a list, since the stream is read once
and from its start. -/
structure CaptureIntakeRequest where
  originalFilename : String
  policyProfile : PolicyProfile
  expectedHostname : Option String := none
  caseId : Option String := none
  maxCaptureBytes : Nat := 64 * 1024 * 1024
  chunks : List (List UInt8)

/-- What `find_duplicate` looks for: the bytes, and what the analysis of them depends on. One capture
under two policies is two jobs. -/
structure CaptureKey where
  captureSha256 : Digest
  policyProfile : String
  expectedHostname : Option String
deriving DecidableEq

/-- `AnalysisJob` with the fields of the capture. The time is in microseconds of UTC. -/
structure CaptureJob where
  runId : Identifier
  caseId : Identifier
  key : CaptureKey
  originalFilename : String
  captureFormat : CaptureFormat
  createdAt : Int
  record : AnalysisJob
deriving DecidableEq

/-- The job as `status.json` has it: the time is cut to a second. -/
def CaptureJob.serialized (job : CaptureJob) : CaptureJob :=
  { job with createdAt := job.createdAt - job.createdAt % 1000000 }

/-- A job that is not terminal, or completed. -/
def CaptureJob.isReusable (job : CaptureJob) : Bool :=
  !job.record.isTerminal || job.record.status = .completed

def CaptureJob.answers (job : CaptureJob) (key : CaptureKey) : Bool :=
  job.key = key && job.isReusable

/-- `StagedCapture`. It is all that is known of an upload without reading it again. -/
structure StagedCapture where
  uploadId : Identifier
  sha256 : Digest
  sizeBytes : Nat
  header : List UInt8
deriving DecidableEq

/-- A directory of `jobs`: its name, `status.json` if there is one, and the bytes of its files. -/
structure JobEntry where
  name : String
  job : Option CaptureJob
  bytes : Nat
deriving DecidableEq

/-- `FilesystemJobStore`: the directories of `jobs` and the files of `quarantine`. -/
structure JobStore where
  maxJobs : Nat := 64
  maxDataBytes : Nat := 2 * 1024 * 1024 * 1024
  entries : List JobEntry := []
  quarantine : List (Identifier × Nat) := []
  maxJobs_pos : 0 < maxJobs := by decide
  maxDataBytes_pos : 0 < maxDataBytes := by decide

/-- What `hashlib` and `json` compute for intake: a digest, and the length of a record's text. -/
structure Host where
  sha256 : List UInt8 → Digest
  statusBytes : CaptureJob → Nat

/-! ## The checks of the request -/

/-- `_basename`. A client may send a path of its own system, so both kinds of slashes separate. -/
def basename (filename : String) : Except IntakeError String :=
  let parts := (splitOnChar '/' (replaceChar '\\' '/' filename)).filter fun part =>
    part ≠ "" && part ≠ "."
  let name := parts.getLast?.getD ""
  if name = "" ∨ name = "." ∨ name = ".." then .error .filenameMissing
  else if 255 < name.length then .error .filenameTooLong
  else .ok name

/-- `capture_format_for_filename`. -/
def captureFormatForFilename (filename : String) : Except IntakeError CaptureFormat :=
  if endsWith (lower filename) ".pcapng" then .ok .pcapng
  else if endsWith (lower filename) ".pcap" then .ok .pcap
  else .error .unknownExtension

def pcapngMagic : List UInt8 := [0x0a, 0x0d, 0x0d, 0x0a]

def pcapMagics : List (List UInt8) :=
  [[0xd4, 0xc3, 0xb2, 0xa1], [0xa1, 0xb2, 0xc3, 0xd4], [0x4d, 0x3c, 0xb2, 0xa1],
    [0xa1, 0xb2, 0x3c, 0x4d]]

/-- `validate_magic`. The name of the upload says which format is expected, and the bytes have to
agree. -/
def validateMagic (header : List UInt8) (format : CaptureFormat) : Except IntakeError Unit :=
  if header.length < 4 then .error .captureTruncated
  else
    let magic := header.take 4
    match format with
    | .pcapng => if magic ≠ pcapngMagic then .error .notPcapngMagic else .ok ()
    | .pcap => if magic ∉ pcapMagics then .error .notPcapMagic else .ok ()

/-- `case_id_for`. A case that was asked for is taken or refused, and never changed but for the
blanks around it; one that was not is made of the name and the digest. -/
def caseIdFor (requested : Option String) (filename : String) (digest : Digest) :
    Except IntakeError Identifier :=
  match requested with
  | some requested =>
    if h : isIdentifier (strip requested) = true then .ok ⟨strip requested, h⟩
    else .error .invalidCaseId
  | none => .ok ⟨defaultCaseName filename digest, isIdentifier_defaultCaseName filename digest⟩

/-! ## Quarantine -/

/-- `_BoundedChunks`: the chunks that are not empty, if they are not too long together. -/
def boundedChunks (maxBytes : Nat) : Nat → List (List UInt8) → Except IntakeError (List (List UInt8))
  | _, [] => .ok []
  | size, chunk :: rest =>
    if chunk.isEmpty then boundedChunks maxBytes size rest
    else if maxBytes < size + chunk.length then .error (.captureTooLarge maxBytes)
    else (boundedChunks maxBytes (size + chunk.length) rest).map (chunk :: ·)

/-- The loop of `stage_capture`: the bytes digested, their number and the first four. -/
structure Staging where
  digested : List UInt8 := []
  size : Nat := 0
  header : List UInt8 := []

def Staging.chunk (staging : Staging) (chunk : List UInt8) : Staging where
  digested := staging.digested ++ chunk
  size := staging.size + chunk.length
  header :=
    if staging.header.length < 4 then staging.header ++ chunk.take (4 - staging.header.length)
    else staging.header

def uploadIdOf (token : Token) : Identifier := token.identifier 'u' rfl

def runIdOf (token : Token) : Identifier := token.identifier 'r' rfl

namespace JobStore

/-- A quarantine file leaves the store. -/
def dropStaged (store : JobStore) (uploadId : Identifier) : JobStore :=
  { store with quarantine := store.quarantine.filter fun file => file.1 ≠ uploadId }

/-- `stage_capture`. A file that is given up again leaves no trace. -/
def stageCapture (host : Host) (store : JobStore) (token : Token) (maxBytes : Nat)
    (chunks : List (List UInt8)) : Except IntakeError (StagedCapture × JobStore) :=
  let uploadId := uploadIdOf token
  if (store.quarantine.lookup uploadId).isSome then .error .cannotCreate
  else do
    let chunks ← boundedChunks maxBytes 0 chunks
    let staging := chunks.foldl Staging.chunk {}
    if staging.size = 0 then .error .captureEmpty
    else
      .ok (⟨uploadId, host.sha256 staging.digested, staging.size, staging.header.take 4⟩,
        { store with quarantine := (uploadId, staging.size) :: store.quarantine })

/-! ## The jobs -/

/-- `list_jobs`: the records in order of their directories' names. -/
def listJobs (store : JobStore) : List CaptureJob :=
  (store.entries.insertionSort (fun a b => a.name ≤ b.name)).filterMap (·.job)

/-- The jobs of a capture that may be given to a second caller. -/
def reusable (store : JobStore) (key : CaptureKey) : List CaptureJob :=
  store.listJobs.filter (·.answers key)

/-- `(item.created_at, item.run_id)`. -/
def creationOrder : CaptureJob → CaptureJob → Ordering :=
  compareLex (compareOn (·.createdAt)) (compareOn (·.runId.text))

/-- `find_duplicate`: the last of the matches in order of their creation. -/
def findDuplicate (store : JobStore) (key : CaptureKey) : Option CaptureJob :=
  ((store.reusable key).insertionSort (SortKey.Before creationOrder)).getLast?

/-- `_usage_bytes`. -/
def usageBytes (store : JobStore) : Nat :=
  (store.entries.map (·.bytes)).sum + (store.quarantine.map (·.2)).sum

/-- `commit_staged`. The limits are looked at before anything is moved, so a refusal leaves the
store alone. -/
def commitStaged (host : Host) (store : JobStore) (uploadId : Identifier) (job : CaptureJob) :
    Except IntakeError JobStore :=
  match store.quarantine.lookup uploadId with
  | none => .error .stagedMissing
  | some size =>
    if store.maxJobs ≤ store.entries.length then .error (.tooManyJobs store.maxJobs)
    -- The upload counts twice: it is still a file of the quarantine.
    else if store.maxDataBytes < store.usageBytes + size then
      .error (.tooManyBytes store.maxDataBytes)
    else if store.entries.any (·.name = job.runId.text) then .error .duplicateRunId
    else
      .ok { store.dropStaged uploadId with
        entries := ⟨job.runId.text, some job.serialized, size + host.statusBytes job⟩ :: store.entries }

end JobStore

namespace CaptureIntakeRequest

/-- The capture as the caller sends it. -/
def contents (request : CaptureIntakeRequest) : List UInt8 := request.chunks.flatten

/-- The key of a request whose capture has this digest. -/
def key (request : CaptureIntakeRequest) (digest : Digest) : CaptureKey :=
  ⟨digest, request.policyProfile.value, request.expectedHostname⟩

/-- The name, the size and the first bytes of the capture pass their checks. It is what the checks
of the upload are for, in words of the request and without their order. -/
def Acceptable (request : CaptureIntakeRequest) : Prop :=
  ∃ filename format, basename request.originalFilename = .ok filename ∧
    captureFormatForFilename filename = .ok format ∧
    0 < request.contents.length ∧ request.contents.length ≤ request.maxCaptureBytes ∧
    validateMagic (request.contents.take 4) format = .ok ()

/-- The case is not named, or named by an identifier. -/
def CaseNamed (request : CaptureIntakeRequest) : Prop :=
  ∀ requested, request.caseId = some requested → isIdentifier (strip requested) = true

end CaptureIntakeRequest

/-! ## `ingest_capture` step by step -/

/-- The upload of a request, once its name is accepted and its first bytes fit the name. -/
def stage (host : Host) (store : JobStore) (request : CaptureIntakeRequest) (token : Token) :
    Except IntakeError (StagedCapture × Except IntakeError Unit × JobStore) := do
  let filename ← basename request.originalFilename
  let format ← captureFormatForFilename filename
  let (upload, store) ← store.stageCapture host token request.maxCaptureBytes request.chunks
  return (upload, validateMagic upload.header format, store)

/-- The job of a request that found none. -/
def newJob (request : CaptureIntakeRequest) (upload : StagedCapture) (token : Token) (now : Int) :
    Except IntakeError CaptureJob := do
  let filename ← basename request.originalFilename
  let format ← captureFormatForFilename filename
  let caseId ← caseIdFor request.caseId filename upload.sha256
  return {
    runId := runIdOf token
    caseId := caseId
    key := request.key upload.sha256
    originalFilename := filename
    captureFormat := format
    createdAt := now
    record := { status := .queued, stage := .intake }
  }

/-! ## Staging -/

theorem boundedChunks_eq {maxBytes : Nat} {chunks : List (List UInt8)} :
    ∀ {size : Nat}, size ≤ maxBytes → boundedChunks maxBytes size chunks =
      if size + chunks.flatten.length ≤ maxBytes then .ok (chunks.filter (!·.isEmpty))
      else .error (.captureTooLarge maxBytes) := by
  induction chunks with
  | nil =>
    intro size hsize
    simp [boundedChunks, hsize]
  | cons chunk rest ih =>
    intro size hsize
    rw [boundedChunks, List.flatten_cons, List.length_append, ← Nat.add_assoc]
    cases hempty : chunk.isEmpty with
    | true =>
      have hlength : chunk.length = 0 := by simpa using hempty
      simp [hempty, ih hsize, hlength]
    | false =>
      by_cases hchunk : size + chunk.length ≤ maxBytes
      · rw [ih hchunk]
        have hfits : ¬ maxBytes < size + chunk.length := Nat.not_lt.mpr hchunk
        by_cases hrest : size + chunk.length + rest.flatten.length ≤ maxBytes
        · simp [hfits, hrest, hempty, Except.map, -List.length_flatten]
        · simp [hfits, hrest, Except.map, -List.length_flatten]
      · have htoo : maxBytes < size + chunk.length := Nat.lt_of_not_le hchunk
        have hrest : ¬ size + chunk.length + rest.flatten.length ≤ maxBytes := by omega
        simp [htoo, hrest, -List.length_flatten]

/-- The loop digests all bytes, counts them and keeps the first four. -/
theorem foldl_chunk (chunks : List (List UInt8)) :
    ∀ staging : Staging, staging.size = staging.digested.length →
      staging.header = staging.digested.take 4 →
      chunks.foldl Staging.chunk staging = {
        digested := staging.digested ++ chunks.flatten
        size := (staging.digested ++ chunks.flatten).length
        header := (staging.digested ++ chunks.flatten).take 4 } := by
  induction chunks with
  | nil =>
    intro staging hsize hheader
    simp [← hsize, ← hheader]
  | cons chunk rest ih =>
    intro staging hsize hheader
    rw [List.foldl_cons, ih]
    · simp [Staging.chunk]
    · simp [Staging.chunk, hsize]
    · show (if staging.header.length < 4 then _ else _) = (staging.digested ++ chunk).take 4
      rw [hheader, List.take_append, List.length_take]
      by_cases hfour : min 4 staging.digested.length < 4
      · have hshort : staging.digested.length < 4 := by omega
        have hmin : min 4 staging.digested.length = staging.digested.length := by omega
        rw [if_pos hfour, hmin]
      · have hlong : 4 - staging.digested.length = 0 := by omega
        rw [if_neg hfour, hlong, List.take_zero, List.append_nil]

theorem flatten_filter_isEmpty (chunks : List (List UInt8)) :
    (chunks.filter (!·.isEmpty)).flatten = chunks.flatten := by
  induction chunks with
  | nil => rfl
  | cons chunk rest ih =>
    cases chunk with
    | nil => simpa using ih
    | cons byte bytes => simp [ih]

section

variable {host : Host} {store store' : JobStore} {request : CaptureIntakeRequest} {token : Token}
  {upload : StagedCapture} {job : CaptureJob} {key : CaptureKey}

/-- The upload of an accepted request. -/
def uploadOf (host : Host) (request : CaptureIntakeRequest) (token : Token) : StagedCapture where
  uploadId := uploadIdOf token
  sha256 := host.sha256 request.contents
  sizeBytes := request.contents.length
  header := request.contents.take 4

theorem stageCapture_eq : store.stageCapture host token request.maxCaptureBytes request.chunks =
    if (store.quarantine.lookup (uploadIdOf token)).isSome then .error .cannotCreate
    else if request.maxCaptureBytes < request.contents.length then
      .error (.captureTooLarge request.maxCaptureBytes)
    else if request.contents.length = 0 then .error .captureEmpty
    else .ok (uploadOf host request token, { store with
      quarantine := (uploadIdOf token, request.contents.length) :: store.quarantine }) := by
  unfold JobStore.stageCapture
  rw [boundedChunks_eq (Nat.zero_le _), Nat.zero_add]
  by_cases htoken : (store.quarantine.lookup (uploadIdOf token)).isSome = true
  · simp [htoken]
  · by_cases hfits : request.chunks.flatten.length ≤ request.maxCaptureBytes
    · have hnot : ¬ request.maxCaptureBytes < request.contents.length := Nat.not_lt.mpr hfits
      simp only [htoken, Bool.false_eq_true, if_false, hfits, if_true, hnot]
      show (if ((request.chunks.filter (!·.isEmpty)).foldl Staging.chunk {}).size = 0 then _ else _) = _
      rw [foldl_chunk _ {} rfl rfl]
      simp only [List.nil_append, flatten_filter_isEmpty, List.take_take, Nat.min_self]
      rfl
    · have htoo : request.maxCaptureBytes < request.contents.length := Nat.lt_of_not_le hfits
      simp only [htoken, Bool.false_eq_true, if_false, hfits, htoo, if_true]
      rfl

/-- The store with the upload of a request in quarantine. -/
def JobStore.withStaged (store : JobStore) (request : CaptureIntakeRequest) (token : Token) : JobStore :=
  { store with quarantine := (uploadIdOf token, request.contents.length) :: store.quarantine }

/-- What stays in quarantine is the whole upload, under a name that was unused; its first bytes fit
exactly when the request is acceptable. -/
theorem of_stage_eq_ok {verdict : Except IntakeError Unit}
    (h : stage host store request token = .ok (upload, verdict, store')) :
    store.quarantine.lookup (uploadIdOf token) = none ∧ upload = uploadOf host request token ∧
      store' = store.withStaged request token ∧ (verdict = .ok () ↔ request.Acceptable) := by
  unfold stage at h
  rw [stageCapture_eq] at h
  cases hname : basename request.originalFilename with
  | error e => simp [hname, bind, Except.bind] at h
  | ok filename =>
  cases hformat : captureFormatForFilename filename with
  | error e => simp [hname, hformat, bind, Except.bind] at h
  | ok format =>
  simp only [hname, hformat, bind, Except.bind] at h
  by_cases htoken : (store.quarantine.lookup (uploadIdOf token)).isSome = true
  · simp [htoken] at h
  by_cases htoo : request.maxCaptureBytes < request.contents.length
  · simp [htoken, htoo] at h
  by_cases hempty : request.contents.length = 0
  · simp [htoken, hempty] at h
  simp only [htoken, htoo, hempty, pure, Except.pure, Bool.false_eq_true, if_false, Except.ok.injEq,
    Prod.mk.injEq] at h
  obtain ⟨rfl, rfl, rfl⟩ := h
  refine ⟨Option.not_isSome_iff_eq_none.mp htoken, rfl, rfl, ?_⟩
  show validateMagic (request.contents.take 4) format = .ok () ↔ _
  constructor
  · intro hmagic
    exact ⟨filename, format, hname, hformat, Nat.pos_of_ne_zero hempty, Nat.le_of_not_lt htoo, hmagic⟩
  · rintro ⟨filename', format', hname', hformat', -, -, hmagic⟩
    obtain rfl : filename = filename' := Except.ok.inj (hname.symm.trans hname')
    obtain rfl : format = format' := Except.ok.inj (hformat.symm.trans hformat')
    exact hmagic

/-- An acceptable request is staged if its random name is unused. -/
theorem stage_eq_ok_of (host : Host) (h : request.Acceptable)
    (hunused : store.quarantine.lookup (uploadIdOf token) = none) :
    stage host store request token =
      .ok (uploadOf host request token, .ok (), store.withStaged request token) := by
  obtain ⟨filename, format, hname, hformat, hpos, hfits, hmagic⟩ := h
  have htoken : ¬ (store.quarantine.lookup (uploadIdOf token)).isSome = true :=
    Option.not_isSome_iff_eq_none.mpr hunused
  unfold stage
  rw [stageCapture_eq]
  simp only [hname, hformat, bind, Except.bind, htoken, Nat.not_lt.mpr hfits, hpos.ne', pure,
    Except.pure, Bool.false_eq_true, if_false, uploadOf, hmagic]
  rfl

/-! ## Search and commit -/

/-- A search finds a job exactly when there is one to find. -/
theorem findDuplicate_eq_none_iff : store.findDuplicate key = none ↔ store.reusable key = [] := by
  unfold JobStore.findDuplicate
  rw [List.getLast?_eq_none_iff]
  constructor
  · intro h
    have hlength := congrArg List.length h
    rw [List.length_insertionSort] at hlength
    exact List.length_eq_zero_iff.mp hlength
  · intro h
    rw [h]
    rfl

theorem mem_reusable_of_findDuplicate (h : store.findDuplicate key = some job) :
    job ∈ store.reusable key :=
  (List.mem_insertionSort _).mp (List.mem_of_getLast? h)

theorem answers_of_mem_reusable (h : job ∈ store.reusable key) : job.answers key = true :=
  (List.mem_filter.mp h).2

/-- What a commit finds when it goes through: both limits leave room, and the run's name is free. -/
def HasRoom (store : JobStore) (upload : StagedCapture) (runId : Identifier) : Prop :=
  store.entries.length < store.maxJobs ∧
    store.usageBytes + upload.sizeBytes ≤ store.maxDataBytes ∧
    ∀ entry ∈ store.entries, entry.name ≠ runId.text

/-- The store after the commit. -/
def JobStore.committed (host : Host) (store : JobStore) (upload : StagedCapture) (job : CaptureJob) :
    JobStore :=
  { store.dropStaged upload.uploadId with
    entries := ⟨job.runId.text, some job.serialized, upload.sizeBytes + host.statusBytes job⟩ ::
      store.entries }

/-- The commit of an upload that is in quarantine goes through if it finds room. -/
theorem commitStaged_eq_ok_of (host : Host)
    (hstaged : store.quarantine.lookup upload.uploadId = some upload.sizeBytes)
    (hroom : HasRoom store upload job.runId) :
    store.commitStaged host upload.uploadId job = .ok (store.committed host upload job) := by
  obtain ⟨hjobs, hbytes, hname⟩ := hroom
  have hfree : ¬ store.entries.any (·.name = job.runId.text) = true := by
    simpa [List.any_eq_true] using hname
  unfold JobStore.commitStaged
  simp only [hstaged, Nat.not_le.mpr hjobs, Nat.not_lt.mpr hbytes, hfree, Bool.false_eq_true, if_false]
  rfl

/-- A commit that goes through has found room. -/
theorem of_commitStaged_eq_ok
    (hstaged : store.quarantine.lookup upload.uploadId = some upload.sizeBytes)
    (h : store.commitStaged host upload.uploadId job = .ok store') :
    HasRoom store upload job.runId ∧ store' = store.committed host upload job := by
  unfold JobStore.commitStaged at h
  rw [hstaged] at h
  by_cases hjobs : store.maxJobs ≤ store.entries.length
  · simp [hjobs] at h
  by_cases hbytes : store.maxDataBytes < store.usageBytes + upload.sizeBytes
  · simp [hjobs, hbytes] at h
  by_cases hname : store.entries.any (·.name = job.runId.text) = true
  · simp only [hjobs, hbytes, hname, if_true, if_false, reduceCtorEq] at h
  · have hfree : ∀ entry ∈ store.entries, entry.name ≠ job.runId.text := by
      simpa [List.any_eq_true] using hname
    simp only [hjobs, hbytes, hname, Bool.false_eq_true, if_false, Except.ok.injEq] at h
    exact ⟨⟨Nat.lt_of_not_le hjobs, Nat.le_of_not_lt hbytes, hfree⟩, h.symm⟩

/-- An accepted request gets a job of its own unless it names the case in vain. -/
theorem newJob_eq_ok_iff (h : request.Acceptable) {now : Int} :
    (∃ job, newJob request upload token now = .ok job) ↔ request.CaseNamed := by
  obtain ⟨filename, format, hname, hformat, -⟩ := h
  unfold newJob CaptureIntakeRequest.CaseNamed
  rw [hname]
  cases hcase : request.caseId with
  | none => simp [bind, Except.bind, pure, Except.pure, hformat, caseIdFor]
  | some requested =>
    by_cases hvalid : isIdentifier (strip requested) = true
    · simp [bind, Except.bind, pure, Except.pure, hformat, caseIdFor, hvalid]
    · simp [bind, Except.bind, hformat, caseIdFor, hvalid]

/-- The new job is queued, under the run's name and the key of the upload. -/
theorem of_newJob_eq_ok {now : Int} (h : newJob request upload token now = .ok job) :
    job.runId = runIdOf token ∧ job.key = request.key upload.sha256 ∧
      job.record.status = .queued := by
  unfold newJob at h
  cases hname : basename request.originalFilename with
  | error e => simp [hname, bind, Except.bind] at h
  | ok filename =>
  cases hformat : captureFormatForFilename filename with
  | error e => simp [hname, hformat, bind, Except.bind] at h
  | ok format =>
  cases hcase : caseIdFor request.caseId filename upload.sha256 with
  | error e => simp [hname, hformat, hcase, bind, Except.bind] at h
  | ok caseId =>
  simp only [hname, hformat, hcase, bind, Except.bind, pure, Except.pure, Except.ok.injEq] at h
  subst h
  exact ⟨rfl, rfl, rfl⟩

/-- The jobs after a commit are the jobs before and the new one. -/
theorem reusable_committed_perm (hjob : job.serialized.answers key = true) :
    ((store.committed host upload job).reusable key).Perm (job.serialized :: store.reusable key) := by
  have hlist : (store.committed host upload job).listJobs.Perm (job.serialized :: store.listJobs) := by
    refine ((List.perm_insertionSort _ _).filterMap _).trans ?_
    show List.Perm (job.serialized :: store.entries.filterMap (·.job)) _
    exact ((List.perm_insertionSort _ _).filterMap _).symm.cons _
  refine (hlist.filter _).trans ?_
  simp only [List.filter_cons, hjob, if_true]
  exact List.Perm.refl _

@[simp] theorem reusable_dropStaged (uploadId : Identifier) :
    (store.dropStaged uploadId).reusable key = store.reusable key := rfl

end

end Jobs
end SecureMail
