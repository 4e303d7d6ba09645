import Mathlib.Logic.Function.Basic
import SecureMail.Jobs.Intake
import SecureMail.Lib.Transition

/-!
# Concurrent intakes of one capture

An intake looks for a job of its capture and commits one of its own if it finds none. What the
search has seen need not hold any more at the commit: a second caller that searches before the first
has committed finds nothing either, and both commit.

`Flawed` says what has gone wrong, or is bound to: a caller was refused, or there are two among the
jobs of the capture and the callers on their way to commit one. Nothing takes a flaw back, and
exactly the steps that are not `Orderly` bring one in. So the callers of a run are all given the
one job if, and only if, every search waits for the commit of the search before and every commit
finds room.

The condition is on the state before each step and on nothing a caller returns. To have it exact,
the flaw has to be named at the step that makes it inevitable and not at the one that shows it: two
callers that have both searched in vain are two jobs already, whichever commits first. That is why a
caller on its way counts like a job, and why the invariant speaks of uploads in quarantine, since a
commit that finds no file is a refusal too.
-/

namespace SecureMail
namespace Jobs

open Transition

/-- How far a call of `ingest_capture` has come: called, the upload staged, the search in vain, on
the way out with the upload still in quarantine, returned. -/
inductive IntakeProgress
  | called
  | staged (upload : StagedCapture)
  | missed (upload : StagedCapture)
  | leaving (upload : StagedCapture) (outcome : Except IntakeError CaptureJob)
  | returned (outcome : Except IntakeError CaptureJob)

/-- The steps of `ingest_capture`, with the random names and the clock they read. -/
inductive IntakeAction
  | stage (token : Token)
  | search
  | commit (token : Token) (now : Int)
  | abort

/-- One step of `ingest_capture`. An upload is staged, looked for and committed in three steps, and
other callers may come in after each of them. -/
def advance (host : Host) (request : CaptureIntakeRequest) (store : JobStore) :
    IntakeProgress → IntakeAction → Option (JobStore × IntakeProgress)
  | .called, .stage token =>
    match stage host store request token with
    | .error e => some (store, .returned (.error e))
    | .ok (upload, .ok (), store') => some (store', .staged upload)
    | .ok (upload, .error e, store') => some (store', .leaving upload (.error e))
  | .staged upload, .search =>
    match store.findDuplicate (request.key upload.sha256) with
    | some duplicate =>
      if duplicate.isReusable then some (store, .leaving upload (.ok duplicate))
      else some (store, .missed upload)
    | none => some (store, .missed upload)
  | .missed upload, .commit token now =>
    match newJob request upload token now with
    | .error e => some (store, .leaving upload (.error e))
    | .ok job =>
      match store.commitStaged host upload.uploadId job with
      | .error e => some (store, .leaving upload (.error e))
      | .ok store' => some (store', .returned (.ok job))
  | .leaving upload outcome, .abort => some (store.dropStaged upload.uploadId, .returned outcome)
  | _, _ => none

/-- A store and the callers at work on it. -/
structure Intakes (ι : Type*) where
  store : JobStore
  progress : ι → IntakeProgress

section

variable {ι : Type*} [DecidableEq ι]

namespace Intakes

/-- A caller has moved. -/
def put (s : Intakes ι) (i : ι) (moved : JobStore × IntakeProgress) : Intakes ι where
  store := moved.1
  progress := Function.update s.progress i moved.2

/-- All are about to call. -/
def start (store : JobStore) : Intakes ι := ⟨store, fun _ => .called⟩

/-- All calls have returned. -/
def Complete (s : Intakes ι) : Prop := ∀ i, ∃ outcome, s.progress i = .returned outcome

@[simp] theorem put_store (s : Intakes ι) (i : ι) (moved : JobStore × IntakeProgress) :
    (s.put i moved).store = moved.1 := rfl

@[simp] theorem put_progress_self (s : Intakes ι) (i : ι) (moved : JobStore × IntakeProgress) :
    (s.put i moved).progress i = moved.2 := Function.update_self _ _ _

theorem put_progress_of_ne (s : Intakes ι) {i j : ι} (h : j ≠ i) (moved : JobStore × IntakeProgress) :
    (s.put i moved).progress j = s.progress j := Function.update_of_ne h _ _

end Intakes

/-- Any caller takes its next step. -/
def IntakeStep (host : Host) (requests : ι → CaptureIntakeRequest) (s : Intakes ι)
    (a : ι × IntakeAction) (t : Intakes ι) : Prop :=
  ∃ moved, advance host (requests a.1) s.store (s.progress a.1) a.2 = some moved ∧ t = s.put a.1 moved

/-- What every step is to find: a request that can be accepted and a random name that is free, nobody
between a search and its commit, a name for the case, and room. The second of these is the one the
code could see to, with a lock around search and commit; the others are limits of the store. -/
def Orderly (requests : ι → CaptureIntakeRequest) (s : Intakes ι) (a : ι × IntakeAction) : Prop :=
  match a with
  | (i, .stage token) =>
    (requests i).Acceptable ∧ s.store.quarantine.lookup (uploadIdOf token) = none
  | (i, .search) => ∀ j upload, j ≠ i → s.progress j ≠ .missed upload
  | (i, .commit token _) =>
    (requests i).CaseNamed ∧
      ∀ upload, s.progress i = .missed upload → HasRoom s.store upload (runIdOf token)
  | (_, .abort) => True

/-- At most one job of the key is there to be reused, and every caller was given it. -/
def Idempotent (key : CaptureKey) (s : Intakes ι) : Prop :=
  (s.store.reusable key).length ≤ 1 ∧
    ∀ i, ∃ job, s.progress i = .returned (.ok job) ∧
      ∃ stored ∈ s.store.reusable key, stored.runId = job.runId

end

/-! ## What a step does -/

namespace IntakeProgress

/-- The upload a call has in quarantine. -/
def upload? : IntakeProgress → Option StagedCapture
  | .called | .returned _ => none
  | .staged upload | .missed upload | .leaving upload _ => some upload

/-- The call searched in vain and has not tried its commit. -/
def isMissed : IntakeProgress → Bool
  | .missed _ => true
  | _ => false

/-- The call raises. -/
def isRefused : IntakeProgress → Bool
  | .leaving _ (.error _) | .returned (.error _) => true
  | _ => false

/-- The job a call returns. -/
def given? : IntakeProgress → Option CaptureJob
  | .leaving _ (.ok job) | .returned (.ok job) => some job
  | _ => none

/-- The job a call has returned. -/
def returned? : IntakeProgress → Option CaptureJob
  | .returned (.ok job) => some job
  | _ => none

theorem returned?_eq_some_iff {p : IntakeProgress} {job : CaptureJob} :
    p.returned? = some job ↔ p = .returned (.ok job) := by
  cases p with
  | returned outcome => cases outcome <;> simp [returned?]
  | called | staged _ | missed _ | leaving _ _ => simp [returned?]

end IntakeProgress

/-- What `advance` can do, with what it has found. The store and the progress of the caller change
together, and each case says what was found on the way, so that no later proof unfolds `advance`. -/
inductive Advanced (host : Host) (request : CaptureIntakeRequest) (store : JobStore) :
    IntakeProgress → IntakeAction → JobStore × IntakeProgress → Prop
  | staged {token : Token} : request.Acceptable →
      store.quarantine.lookup (uploadIdOf token) = none →
      Advanced host request store .called (.stage token)
        (store.withStaged request token, .staged (uploadOf host request token))
  | unfit {token : Token} {error : IntakeError} : ¬ request.Acceptable →
      store.quarantine.lookup (uploadIdOf token) = none →
      Advanced host request store .called (.stage token)
        (store.withStaged request token, .leaving (uploadOf host request token) (.error error))
  | unstaged {token : Token} {error : IntakeError} :
      ¬ (request.Acceptable ∧ store.quarantine.lookup (uploadIdOf token) = none) →
      Advanced host request store .called (.stage token) (store, .returned (.error error))
  | hit {upload : StagedCapture} {duplicate : CaptureJob} :
      duplicate ∈ store.reusable (request.key upload.sha256) →
      Advanced host request store (.staged upload) .search (store, .leaving upload (.ok duplicate))
  | miss {upload : StagedCapture} : store.reusable (request.key upload.sha256) = [] →
      Advanced host request store (.staged upload) .search (store, .missed upload)
  | committed {upload : StagedCapture} {token : Token} {now : Int} {job : CaptureJob} :
      newJob request upload token now = .ok job → request.CaseNamed →
      HasRoom store upload (runIdOf token) →
      Advanced host request store (.missed upload) (.commit token now)
        (store.committed host upload job, .returned (.ok job))
  | uncommitted {upload : StagedCapture} {token : Token} {now : Int} {error : IntakeError} :
      ¬ (request.CaseNamed ∧ HasRoom store upload (runIdOf token)) →
      Advanced host request store (.missed upload) (.commit token now)
        (store, .leaving upload (.error error))
  | aborted {upload : StagedCapture} {outcome : Except IntakeError CaptureJob} :
      Advanced host request store (.leaving upload outcome) .abort
        (store.dropStaged upload.uploadId, .returned outcome)

section

variable {host : Host} {request : CaptureIntakeRequest} {store : JobStore} {p : IntakeProgress}
  {a : IntakeAction} {moved : JobStore × IntakeProgress}

theorem advanced_of_stage {token : Token}
    (h : advance host request store .called (.stage token) = some moved) :
    Advanced host request store .called (.stage token) moved := by
  unfold advance at h
  cases hstage : stage host store request token with
  | error e =>
    simp only [hstage, Option.some.injEq] at h
    subst h
    refine .unstaged fun hfit => ?_
    have hok := stage_eq_ok_of host hfit.1 hfit.2
    rw [hstage] at hok
    cases hok
  | ok result =>
    obtain ⟨upload, verdict, store'⟩ := result
    obtain ⟨hunused, rfl, rfl, hverdict⟩ := of_stage_eq_ok hstage
    cases verdict with
    | error e =>
      simp only [hstage, Option.some.injEq] at h
      subst h
      exact .unfit (fun hfit => by simpa using hverdict.mpr hfit) hunused
    | ok u =>
      simp only [hstage, Option.some.injEq] at h
      subst h
      exact .staged (hverdict.mp rfl) hunused

theorem advanced_of_search {upload : StagedCapture}
    (h : advance host request store (.staged upload) .search = some moved) :
    Advanced host request store (.staged upload) .search moved := by
  unfold advance at h
  cases hfind : store.findDuplicate (request.key upload.sha256) with
  | none =>
    simp only [hfind, Option.some.injEq] at h
    subst h
    exact .miss (findDuplicate_eq_none_iff.mp hfind)
  | some duplicate =>
    have hmem := mem_reusable_of_findDuplicate hfind
    have hreusable : duplicate.isReusable = true := by
      have hanswers := answers_of_mem_reusable hmem
      rw [CaptureJob.answers, Bool.and_eq_true] at hanswers
      exact hanswers.2
    simp only [hfind, hreusable, if_true, Option.some.injEq] at h
    subst h
    exact .hit hmem

theorem advanced_of_commit {upload : StagedCapture} {token : Token} {now : Int}
    (hfit : request.Acceptable)
    (hstaged : store.quarantine.lookup upload.uploadId = some upload.sizeBytes)
    (h : advance host request store (.missed upload) (.commit token now) = some moved) :
    Advanced host request store (.missed upload) (.commit token now) moved := by
  unfold advance at h
  cases hjob : newJob request upload token now with
  | error e =>
    simp only [hjob, Option.some.injEq] at h
    subst h
    refine .uncommitted fun hmeets => ?_
    obtain ⟨job, hok⟩ := (newJob_eq_ok_iff hfit).mpr hmeets.1
    rw [hjob] at hok
    cases hok
  | ok job =>
    have hcase : request.CaseNamed := (newJob_eq_ok_iff hfit).mp ⟨job, hjob⟩
    have hrun := (of_newJob_eq_ok hjob).1
    cases hcommit : store.commitStaged host upload.uploadId job with
    | error e =>
      simp only [hjob, hcommit, Option.some.injEq] at h
      subst h
      refine .uncommitted fun hmeets => ?_
      have hok := commitStaged_eq_ok_of host hstaged (hrun ▸ hmeets.2)
      rw [hcommit] at hok
      cases hok
    | ok store' =>
      simp only [hjob, hcommit, Option.some.injEq] at h
      subst h
      obtain ⟨hroom, rfl⟩ := of_commitStaged_eq_ok hstaged hcommit
      exact .committed hjob hcase (hrun ▸ hroom)

/-- **What a step does**, given that the upload is in quarantine and was accepted. -/
theorem advanced_of_advance
    (hstaged : ∀ upload, p.upload? = some upload →
      store.quarantine.lookup upload.uploadId = some upload.sizeBytes)
    (hfit : p.isMissed = true → request.Acceptable)
    (h : advance host request store p a = some moved) : Advanced host request store p a moved := by
  cases p with
  | called =>
    cases a with
    | stage token => exact advanced_of_stage h
    | search | commit _ _ | abort => cases h
  | staged upload =>
    cases a with
    | search => exact advanced_of_search h
    | stage _ | commit _ _ | abort => cases h
  | missed upload =>
    cases a with
    | commit token now => exact advanced_of_commit (hfit rfl) (hstaged upload rfl) h
    | stage _ | search | abort => cases h
  | leaving upload outcome =>
    cases a with
    | abort =>
      cases h
      exact .aborted
    | stage _ | search | commit _ _ => cases h
  | returned outcome => cases a <;> cases h

end

/-! ## Uploads in quarantine -/

section

variable {ι : Type*} [DecidableEq ι] {host : Host} {requests : ι → CaptureIntakeRequest}
  {key : CaptureKey} {s t : Intakes ι} {a : ι × IntakeAction}

/-- Each call that has an upload has it whole in quarantine under a name of its own, with the key of
all; and a call that goes on has been accepted. -/
structure Kept (requests : ι → CaptureIntakeRequest) (key : CaptureKey) (s : Intakes ι) : Prop where
  whole : ∀ i upload, (s.progress i).upload? = some upload →
    s.store.quarantine.lookup upload.uploadId = some upload.sizeBytes
  keyed : ∀ i upload, (s.progress i).upload? = some upload → (requests i).key upload.sha256 = key
  own : ∀ i j upload upload', i ≠ j → (s.progress i).upload? = some upload →
    (s.progress j).upload? = some upload' → upload.uploadId ≠ upload'.uploadId
  accepted : ∀ i, (s.progress i).isMissed = true ∨ (∃ upload, s.progress i = .staged upload) →
    (requests i).Acceptable

/-- A caller moves with its upload, and the files of the others stay. -/
theorem Kept.put_same (hkept : Kept requests key s) {i : ι} {moved : JobStore × IntakeProgress}
    (hupload : ∀ upload, moved.2.upload? = some upload → (s.progress i).upload? = some upload)
    (haccepted : moved.2.isMissed = true ∨ (∃ upload, moved.2 = .staged upload) →
      (requests i).Acceptable)
    (hquarantine : ∀ j upload, j ≠ i ∨ moved.2.upload? = some upload →
      (s.progress j).upload? = some upload →
      moved.1.quarantine.lookup upload.uploadId = s.store.quarantine.lookup upload.uploadId) :
    Kept requests key (s.put i moved) := by
  have hbefore : ∀ j upload, ((s.put i moved).progress j).upload? = some upload →
      (s.progress j).upload? = some upload := by
    intro j upload h
    by_cases hj : j = i
    · subst hj
      rw [Intakes.put_progress_self] at h
      exact hupload upload h
    · rwa [Intakes.put_progress_of_ne _ hj] at h
  refine ⟨?_, ?_, ?_, ?_⟩
  · intro j upload h
    have hthen := hbefore j upload h
    have hsame : moved.1.quarantine.lookup upload.uploadId =
        s.store.quarantine.lookup upload.uploadId := by
      refine hquarantine j upload ?_ hthen
      by_cases hj : j = i
      · subst hj
        rw [Intakes.put_progress_self] at h
        exact Or.inr h
      · exact Or.inl hj
    rw [Intakes.put_store, hsame]
    exact hkept.whole j upload hthen
  · intro j upload h
    exact hkept.keyed j upload (hbefore j upload h)
  · intro j k upload upload' hne h h'
    exact hkept.own j k upload upload' hne (hbefore j upload h) (hbefore k upload' h')
  · intro j h
    by_cases hj : j = i
    · subst hj
      rw [Intakes.put_progress_self] at h
      exact haccepted h
    · rw [Intakes.put_progress_of_ne _ hj] at h
      exact hkept.accepted j h

/-- A caller gets an upload, under a name that nobody has. -/
theorem Kept.put_new (hkept : Kept requests key s) {i : ι} {token : Token} {p : IntakeProgress}
    (hkey : (requests i).key (host.sha256 (requests i).contents) = key)
    (hunused : s.store.quarantine.lookup (uploadIdOf token) = none)
    (hupload : p.upload? = some (uploadOf host (requests i) token))
    (haccepted : p.isMissed = true ∨ (∃ upload, p = .staged upload) → (requests i).Acceptable) :
    Kept requests key (s.put i (s.store.withStaged (requests i) token, p)) := by
  have hother : ∀ j upload, (s.progress j).upload? = some upload →
      upload.uploadId ≠ uploadIdOf token := by
    intro j upload h heq
    have hwhole := hkept.whole j upload h
    rw [heq, hunused] at hwhole
    cases hwhole
  have hself : ∀ {upload}, ((s.put i (s.store.withStaged (requests i) token, p)).progress i).upload? =
      some upload → upload = uploadOf host (requests i) token := by
    intro upload h
    rw [Intakes.put_progress_self, hupload] at h
    exact (Option.some.inj h).symm
  refine ⟨?_, ?_, ?_, ?_⟩
  · intro j upload h
    by_cases hj : j = i
    · subst hj
      obtain rfl := hself h
      show List.lookup (uploadIdOf token) ((uploadIdOf token, _) :: _) = _
      rw [List.lookup_cons_self]
      rfl
    · rw [Intakes.put_progress_of_ne _ hj] at h
      have hne : (upload.uploadId == uploadIdOf token) = false := by simpa using hother j upload h
      show List.lookup upload.uploadId ((uploadIdOf token, _) :: _) = _
      rw [List.lookup_cons, hne]
      exact hkept.whole j upload h
  · intro j upload h
    by_cases hj : j = i
    · subst hj
      obtain rfl := hself h
      exact hkey
    · rw [Intakes.put_progress_of_ne _ hj] at h
      exact hkept.keyed j upload h
  · intro j k upload upload' hne h h'
    by_cases hj : j = i
    · subst hj
      obtain rfl := hself h
      rw [Intakes.put_progress_of_ne _ (Ne.symm hne)] at h'
      exact Ne.symm (hother k upload' h')
    · rw [Intakes.put_progress_of_ne _ hj] at h
      by_cases hk : k = i
      · subst hk
        obtain rfl := hself h'
        exact hother j upload h
      · rw [Intakes.put_progress_of_ne _ hk] at h'
        exact hkept.own j k upload upload' hne h h'
  · intro j h
    by_cases hj : j = i
    · subst hj
      rw [Intakes.put_progress_self] at h
      exact haccepted h
    · rw [Intakes.put_progress_of_ne _ hj] at h
      exact hkept.accepted j h

/-- A file that leaves the quarantine is no other file. -/
theorem lookup_dropStaged {store : JobStore} {uploadId uploadId' : Identifier} (h : uploadId' ≠ uploadId) :
    (store.dropStaged uploadId).quarantine.lookup uploadId' = store.quarantine.lookup uploadId' := by
  show List.lookup uploadId' (store.quarantine.filter fun file => file.1 ≠ uploadId) = _
  induction store.quarantine with
  | nil => rfl
  | cons file rest ih =>
    obtain ⟨name, size⟩ := file
    rw [List.filter_cons, List.lookup_cons]
    by_cases hname : name = uploadId
    · have hdrop : decide (name ≠ uploadId) = false := by simp [hname]
      have hskip : (uploadId' == name) = false := by simpa [hname] using h
      simp only [hdrop, hskip, Bool.false_eq_true, if_false]
      exact ih
    · have hkeep : decide (name ≠ uploadId) = true := by simp [hname]
      simp only [hkeep, if_true, List.lookup_cons, ih]

theorem Kept.advanced (hkept : Kept requests key s)
    (hstep : IntakeStep host requests s a t) :
    ∃ moved, Advanced host (requests a.1) s.store (s.progress a.1) a.2 moved ∧ t = s.put a.1 moved := by
  obtain ⟨moved, hmoved, rfl⟩ := hstep
  refine ⟨moved, advanced_of_advance (hkept.whole a.1) ?_ hmoved, rfl⟩
  intro hmissed
  exact hkept.accepted a.1 (Or.inl hmissed)

/-- Every step keeps the uploads. -/
theorem Kept.step (hkey : ∀ i, (requests i).key (host.sha256 (requests i).contents) = key)
    (hkept : Kept requests key s) (hstep : IntakeStep host requests s a t) : Kept requests key t := by
  obtain ⟨i, a⟩ := a
  obtain ⟨moved, hmoved, rfl⟩ := hkept.advanced hstep
  generalize hp : s.progress i = p at hmoved
  cases hmoved with
  | staged hfit hunused => exact hkept.put_new (hkey i) hunused rfl fun _ => hfit
  | unfit _ hunused => exact hkept.put_new (hkey i) hunused rfl (by simp [IntakeProgress.isMissed])
  | unstaged =>
    exact hkept.put_same (by simp [IntakeProgress.upload?]) (by simp [IntakeProgress.isMissed])
      fun _ _ _ _ => rfl
  | hit =>
    refine hkept.put_same ?_ (by simp [IntakeProgress.isMissed]) fun _ _ _ _ => rfl
    intro upload h
    rw [hp]
    exact h
  | miss =>
    refine hkept.put_same ?_ ?_ fun _ _ _ _ => rfl
    · intro upload h
      rw [hp]
      exact h
    · intro _
      exact hkept.accepted i (Or.inr ⟨_, hp⟩)
  | @committed upload =>
    refine hkept.put_same (by simp [IntakeProgress.upload?]) (by simp [IntakeProgress.isMissed]) ?_
    intro j upload' hj h
    have hne : j ≠ i := by simpa [IntakeProgress.upload?] using hj
    have hown := hkept.own j i upload' upload hne h (by rw [hp]; rfl)
    exact lookup_dropStaged hown
  | uncommitted =>
    refine hkept.put_same ?_ (by simp [IntakeProgress.isMissed]) fun _ _ _ _ => rfl
    intro upload h
    rw [hp]
    exact h
  | @aborted upload =>
    refine hkept.put_same (by simp [IntakeProgress.upload?]) (by simp [IntakeProgress.isMissed]) ?_
    intro j upload' hj h
    have hne : j ≠ i := by simpa [IntakeProgress.upload?] using hj
    have hown := hkept.own j i upload' upload hne h (by rw [hp]; rfl)
    exact lookup_dropStaged hown

/-! ## Who is given what -/

/-- The job a call is given is one of the jobs of the key. -/
def Served (key : CaptureKey) (s : Intakes ι) : Prop :=
  ∀ i job, (s.progress i).given? = some job →
    ∃ stored ∈ s.store.reusable key, stored.runId = job.runId

/-- A new job can be given to others. -/
theorem answers_serialized {request : CaptureIntakeRequest} {upload : StagedCapture} {token : Token}
    {now : Int} {job : CaptureJob} (h : newJob request upload token now = .ok job)
    (hkey : request.key upload.sha256 = key) : job.serialized.answers key = true := by
  obtain ⟨-, hjobkey, hqueued⟩ := of_newJob_eq_ok h
  have hsame : job.serialized.key = key := hjobkey.trans hkey
  have hnot : job.serialized.record.isTerminal = false := by
    show job.record.status.isTerminal = false
    rw [hqueued]
    rfl
  simp [CaptureJob.answers, CaptureJob.isReusable, hsame, hnot]

/-- A move that gives the caller nothing new serves the others as before. -/
theorem Served.put (hserved : Served key s) {i : ι} {moved : JobStore × IntakeProgress}
    (hstore : ∀ stored ∈ s.store.reusable key, stored ∈ moved.1.reusable key)
    (hgiven : ∀ job, moved.2.given? = some job →
      ∃ stored ∈ moved.1.reusable key, stored.runId = job.runId) :
    Served key (s.put i moved) := by
  intro j job h
  by_cases hj : j = i
  · subst hj
    rw [Intakes.put_progress_self] at h
    exact hgiven job h
  · rw [Intakes.put_progress_of_ne _ hj] at h
    obtain ⟨stored, hstored, hrun⟩ := hserved j job h
    exact ⟨stored, hstore stored hstored, hrun⟩

/-- Every step serves. -/
theorem Served.step (hkept : Kept requests key s) (hserved : Served key s)
    (hstep : IntakeStep host requests s a t) : Served key t := by
  obtain ⟨i, a⟩ := a
  obtain ⟨moved, hmoved, rfl⟩ := hkept.advanced hstep
  generalize hp : s.progress i = p at hmoved
  cases hmoved with
  | staged => exact hserved.put (fun _ h => h) (by simp [IntakeProgress.given?])
  | unfit => exact hserved.put (fun _ h => h) (by simp [IntakeProgress.given?])
  | unstaged => exact hserved.put (fun _ h => h) (by simp [IntakeProgress.given?])
  | @hit upload duplicate hmem =>
    refine hserved.put (fun _ h => h) ?_
    intro job hjob
    obtain rfl : duplicate = job := by simpa [IntakeProgress.given?] using hjob
    rw [hkept.keyed i upload (by rw [hp]; rfl)] at hmem
    exact ⟨duplicate, hmem, rfl⟩
  | miss => exact hserved.put (fun _ h => h) (by simp [IntakeProgress.given?])
  | @committed upload token now job hjob =>
    have hanswers := answers_serialized hjob (hkept.keyed i upload (by rw [hp]; rfl))
    have hperm : ((s.store.committed host upload job).reusable key).Perm
        (job.serialized :: s.store.reusable key) := reusable_committed_perm hanswers
    refine hserved.put ?_ ?_
    · intro stored hstored
      exact hperm.mem_iff.mpr (List.mem_cons_of_mem _ hstored)
    · intro job' hjob'
      obtain rfl : job = job' := by simpa [IntakeProgress.given?] using hjob'
      exact ⟨job.serialized, hperm.mem_iff.mpr List.mem_cons_self, rfl⟩
  | uncommitted => exact hserved.put (fun _ h => h) (by simp [IntakeProgress.given?])
  | @aborted upload outcome =>
    refine hserved.put (fun _ h => h) ?_
    intro job hjob
    refine hserved i job ?_
    rw [hp]
    cases outcome with
    | error e => simp [IntakeProgress.given?] at hjob
    | ok job' => exact hjob

/-! ## What goes wrong -/

/-- A caller is refused, or the jobs of the key and the callers that are about to commit one are two
or more. -/
def Flawed (key : CaptureKey) (s : Intakes ι) : Prop :=
  (∃ i, (s.progress i).isRefused = true) ∨
    2 ≤ (s.store.reusable key).length ∨
    (∃ i, (s.progress i).isMissed = true ∧ s.store.reusable key ≠ []) ∨
    ∃ i j, i ≠ j ∧ (s.progress i).isMissed = true ∧ (s.progress j).isMissed = true

/-- A caller that raises is a flaw. -/
theorem Flawed.put_refused {i : ι} {moved : JobStore × IntakeProgress}
    (h : moved.2.isRefused = true) : Flawed key (s.put i moved) :=
  Or.inl ⟨i, by rwa [Intakes.put_progress_self]⟩

/-- A move that changes neither the jobs nor what the caller is up to. -/
theorem flawed_put_iff {i : ι} {moved : JobStore × IntakeProgress}
    (hstore : moved.1.reusable key = s.store.reusable key)
    (hrefused : moved.2.isRefused = (s.progress i).isRefused)
    (hmissed : moved.2.isMissed = (s.progress i).isMissed) :
    Flawed key (s.put i moved) ↔ Flawed key s := by
  have hrefused' : ∀ j, ((s.put i moved).progress j).isRefused = (s.progress j).isRefused := by
    intro j
    by_cases hj : j = i
    · subst hj
      rw [Intakes.put_progress_self, hrefused]
    · rw [Intakes.put_progress_of_ne _ hj]
  have hmissed' : ∀ j, ((s.put i moved).progress j).isMissed = (s.progress j).isMissed := by
    intro j
    by_cases hj : j = i
    · subst hj
      rw [Intakes.put_progress_self, hmissed]
    · rw [Intakes.put_progress_of_ne _ hj]
  simp only [Flawed, hrefused', hmissed', Intakes.put_store, hstore]

omit [DecidableEq ι] in
theorem orderly_search_iff {i : ι} :
    Orderly requests s (i, .search) ↔ ∀ j, j ≠ i → (s.progress j).isMissed = false := by
  show (∀ j upload, j ≠ i → s.progress j ≠ .missed upload) ↔ _
  constructor
  · intro h j hj
    cases hp : s.progress j with
    | missed upload => exact absurd hp (h j upload hj)
    | called | staged _ | leaving _ _ | returned _ => rfl
  · intro h j upload hj hp
    have hnot := h j hj
    rw [hp] at hnot
    cases hnot

/-- A search in vain. -/
theorem flawed_miss_iff {i : ι} {upload : StagedCapture} (hp : s.progress i = .staged upload)
    (hnone : s.store.reusable key = []) :
    Flawed key (s.put i (s.store, .missed upload)) ↔
      Flawed key s ∨ ¬ Orderly requests s (i, .search) := by
  rw [orderly_search_iff]
  constructor
  · rintro (⟨j, hj⟩ | htwo | ⟨j, -, hsome⟩ | ⟨j, k, hne, hj, hk⟩)
    · left
      have hji : j ≠ i := by
        rintro rfl
        rw [Intakes.put_progress_self] at hj
        cases hj
      rw [Intakes.put_progress_of_ne _ hji] at hj
      exact Or.inl ⟨j, hj⟩
    · exact Or.inl (Or.inr (Or.inl htwo))
    · exact absurd hnone hsome
    · right
      intro hothers
      by_cases hji : j = i
      · subst hji
        rw [Intakes.put_progress_of_ne _ (Ne.symm hne), hothers k (Ne.symm hne)] at hk
        cases hk
      · rw [Intakes.put_progress_of_ne _ hji, hothers j hji] at hj
        cases hj
  · rintro ((⟨j, hj⟩ | htwo | ⟨j, -, hsome⟩ | ⟨j, k, hne, hj, hk⟩) | hother)
    · have hji : j ≠ i := by
        rintro rfl
        rw [hp] at hj
        cases hj
      exact Or.inl ⟨j, by rwa [Intakes.put_progress_of_ne _ hji]⟩
    · exact Or.inr (Or.inl htwo)
    · exact absurd hnone hsome
    · have hmissed : ∀ l, (s.progress l).isMissed = true → l ≠ i := by
        rintro l hl rfl
        rw [hp] at hl
        cases hl
      refine Or.inr (Or.inr (Or.inr ⟨j, k, hne, ?_, ?_⟩))
      · rwa [Intakes.put_progress_of_ne _ (hmissed j hj)]
      · rwa [Intakes.put_progress_of_ne _ (hmissed k hk)]
    · obtain ⟨j, hj⟩ := not_forall.mp hother
      obtain ⟨hji, hmissed⟩ := Classical.not_imp.mp hj
      refine Or.inr (Or.inr (Or.inr ⟨i, j, Ne.symm hji, ?_, ?_⟩))
      · rw [Intakes.put_progress_self]
        rfl
      · rw [Intakes.put_progress_of_ne _ hji]
        simpa using hmissed

/-- A commit that goes through. -/
theorem flawed_commit_iff {i : ι} {upload : StagedCapture} {job : CaptureJob}
    (hp : s.progress i = .missed upload) (hanswers : job.serialized.answers key = true) :
    Flawed key (s.put i (s.store.committed host upload job, .returned (.ok job))) ↔ Flawed key s := by
  have hperm : ((s.store.committed host upload job).reusable key).Perm
      (job.serialized :: s.store.reusable key) := reusable_committed_perm hanswers
  have hmissed : (s.progress i).isMissed = true := by
    rw [hp]
    rfl
  have hsame : ∀ j, j ≠ i →
      (s.put i (s.store.committed host upload job, .returned (.ok job))).progress j = s.progress j :=
    fun j hj => Intakes.put_progress_of_ne _ hj _
  have hlength : ((s.store.committed host upload job).reusable key).length =
      (s.store.reusable key).length + 1 := by
    rw [hperm.length_eq, List.length_cons]
  have hsome : (s.store.committed host upload job).reusable key ≠ [] := by
    intro hnone
    rw [hnone] at hlength
    cases hlength
  have hdone : ∀ j,
      ((s.put i (s.store.committed host upload job, .returned (.ok job))).progress j).isMissed = true →
        j ≠ i := by
    rintro j hj rfl
    rw [Intakes.put_progress_self] at hj
    cases hj
  constructor
  · rintro (⟨j, hj⟩ | htwo | ⟨j, hj, -⟩ | ⟨j, k, hne, hj, hk⟩)
    · have hji : j ≠ i := by
        rintro rfl
        rw [Intakes.put_progress_self] at hj
        cases hj
      rw [hsame j hji] at hj
      exact Or.inl ⟨j, hj⟩
    · rw [Intakes.put_store, hlength] at htwo
      have hbefore : s.store.reusable key ≠ [] := by
        intro hnone
        rw [hnone] at htwo
        exact absurd htwo (by decide)
      exact Or.inr (Or.inr (Or.inl ⟨i, hmissed, hbefore⟩))
    · have hji := hdone j hj
      rw [hsame j hji] at hj
      exact Or.inr (Or.inr (Or.inr ⟨i, j, Ne.symm hji, hmissed, hj⟩))
    · have hji := hdone j hj
      rw [hsame j hji] at hj
      exact Or.inr (Or.inr (Or.inr ⟨i, j, Ne.symm hji, hmissed, hj⟩))
  · rintro (⟨j, hj⟩ | htwo | ⟨j, -, hbefore⟩ | ⟨j, k, hne, hj, hk⟩)
    · have hji : j ≠ i := by
        rintro rfl
        rw [hp] at hj
        cases hj
      exact Or.inl ⟨j, by rwa [hsame j hji]⟩
    · refine Or.inr (Or.inl ?_)
      rw [Intakes.put_store, hlength]
      omega
    · refine Or.inr (Or.inl ?_)
      have hpos := List.length_pos_iff.mpr hbefore
      rw [Intakes.put_store, hlength]
      omega
    · refine Or.inr (Or.inr (Or.inl ?_))
      by_cases hji : j = i
      · refine ⟨k, ?_, hsome⟩
        rw [hsame k (hji ▸ Ne.symm hne)]
        exact hk
      · refine ⟨j, ?_, hsome⟩
        rw [hsame j hji]
        exact hj

/-- **The steps that are not orderly are the ones that bring in a flaw**, and no step takes one
back. -/
theorem flawed_step_iff (hkept : Kept requests key s) (hstep : IntakeStep host requests s a t) :
    Flawed key t ↔ Flawed key s ∨ ¬ Orderly requests s a := by
  obtain ⟨i, a⟩ := a
  obtain ⟨moved, hmoved, rfl⟩ := hkept.advanced hstep
  generalize hp : s.progress i = p at hmoved
  cases hmoved with
  | staged hfit hunused =>
    have horderly : Orderly requests s (i, .stage _) := ⟨hfit, hunused⟩
    rw [flawed_put_iff rfl (by rw [hp]; rfl) (by rw [hp]; rfl)]
    simp [horderly]
  | @unfit token error hunfit _ =>
    have hnot : ¬ Orderly requests s (i, .stage token) := fun h => hunfit h.1
    exact ⟨fun _ => Or.inr hnot, fun _ => Flawed.put_refused rfl⟩
  | @unstaged token error hunfit =>
    have hnot : ¬ Orderly requests s (i, .stage token) := hunfit
    exact ⟨fun _ => Or.inr hnot, fun _ => Flawed.put_refused rfl⟩
  | @hit upload duplicate hmem =>
    rw [flawed_put_iff rfl (by rw [hp]; rfl) (by rw [hp]; rfl), orderly_search_iff]
    rw [hkept.keyed i upload (by rw [hp]; rfl)] at hmem
    constructor
    · exact Or.inl
    · rintro (hflawed | hother)
      · exact hflawed
      · obtain ⟨j, hj⟩ := not_forall.mp hother
        have hmissed : (s.progress j).isMissed = true := by simpa using (Classical.not_imp.mp hj).2
        exact Or.inr (Or.inr (Or.inl ⟨j, hmissed, List.ne_nil_of_mem hmem⟩))
  | @miss upload hnone =>
    rw [hkept.keyed i upload (by rw [hp]; rfl)] at hnone
    exact flawed_miss_iff hp hnone
  | @committed upload token now job hjob hcase hroom =>
    have horderly : Orderly requests s (i, .commit token now) := by
      refine ⟨hcase, ?_⟩
      intro upload' hp'
      obtain rfl : upload = upload' := by simpa using hp.symm.trans hp'
      exact hroom
    rw [flawed_commit_iff hp (answers_serialized hjob (hkept.keyed i upload (by rw [hp]; rfl)))]
    simp [horderly]
  | @uncommitted upload token now error hnone =>
    have hnot : ¬ Orderly requests s (i, .commit token now) :=
      fun h => hnone ⟨h.1, h.2 upload hp⟩
    exact ⟨fun _ => Or.inr hnot, fun _ => Flawed.put_refused rfl⟩
  | @aborted upload outcome =>
    have horderly : Orderly requests s (i, .abort) := trivial
    rw [flawed_put_iff rfl (by rw [hp]; cases outcome <;> rfl) (by rw [hp]; rfl)]
    simp [horderly]

omit [DecidableEq ι] in
/-- When all have returned, a flaw is a refused caller or a second job. -/
theorem idempotent_iff_not_flawed (hserved : Served key s) (hcomplete : s.Complete) :
    Idempotent key s ↔ ¬ Flawed key s := by
  constructor
  · rintro ⟨hone, hgiven⟩ (⟨i, hi⟩ | htwo | ⟨i, hi, -⟩ | ⟨i, j, -, hi, -⟩)
    · obtain ⟨job, hjob, -⟩ := hgiven i
      rw [hjob] at hi
      cases hi
    · omega
    · obtain ⟨job, hjob, -⟩ := hgiven i
      rw [hjob] at hi
      cases hi
    · obtain ⟨job, hjob, -⟩ := hgiven i
      rw [hjob] at hi
      cases hi
  · intro hclean
    rw [Flawed, not_or, not_or] at hclean
    obtain ⟨hrefused, htwo, -⟩ := hclean
    refine ⟨by omega, ?_⟩
    intro i
    obtain ⟨outcome, houtcome⟩ := hcomplete i
    cases outcome with
    | error e => exact absurd ⟨i, by rw [houtcome]; rfl⟩ hrefused
    | ok job => exact ⟨job, houtcome, hserved i job (by rw [houtcome]; rfl)⟩

end

section

variable {ι : Type*} [DecidableEq ι]

/-- **Concurrent intakes of one capture leave one job, and all get it, exactly when** there was at
most one before and every step of the run is orderly. -/
theorem intakes_idempotent_iff {host : Host} {requests : ι → CaptureIntakeRequest} {key : CaptureKey}
    {store : JobStore} {trace : List (ι × IntakeAction)} {final : Intakes ι}
    (hkey : ∀ i, (requests i).key (host.sha256 (requests i).contents) = key)
    (hrun : Run (IntakeStep host requests) (Intakes.start store) trace final)
    (hcomplete : final.Complete) :
    Idempotent key final ↔ (store.reusable key).length ≤ 1 ∧
      Run (fun s a t => IntakeStep host requests s a t ∧ Orderly requests s a)
        (Intakes.start store) trace final := by
  have hkept : Kept requests key (Intakes.start (ι := ι) store) := by
    refine ⟨?_, ?_, ?_, ?_⟩
    · rintro i upload ⟨⟩
    · rintro i upload ⟨⟩
    · rintro i j upload upload' - ⟨⟩
    · rintro i (⟨⟨⟩⟩ | ⟨upload, ⟨⟩⟩)
  have hserved : Kept requests key final ∧ Served key final := by
    refine hrun.invariant (I := fun s => Kept requests key s ∧ Served key s) ?_ ⟨hkept, ?_⟩
    · rintro s a t ⟨hs, hs'⟩ hstep
      exact ⟨hs.step hkey hstep, hs'.step hs hstep⟩
    · rintro i job ⟨⟩
  have hstart : ¬ Flawed key (Intakes.start (ι := ι) store) ↔ (store.reusable key).length ≤ 1 := by
    constructor
    · intro hclean
      rw [Flawed, not_or, not_or] at hclean
      have htwo : ¬ 2 ≤ (store.reusable key).length := hclean.2.1
      omega
    · rintro hone (⟨i, ⟨⟩⟩ | htwo | ⟨i, ⟨⟩, -⟩ | ⟨i, j, -, ⟨⟩, -⟩)
      have htwo' : 2 ≤ (store.reusable key).length := htwo
      omega
  rw [idempotent_iff_not_flawed hserved.2 hcomplete, ← hstart]
  exact hrun.not_flawed_iff (fun s a t hs hstep => hs.step hkey hstep)
    (fun s a t hs hstep => flawed_step_iff hs hstep) hkept

end

/-! ## Two uploads of one capture -/

/-- What the host computes for the capture below. -/
def uploadHost : Host where
  sha256 _ := ⟨"cc9e0853e9ad4fa3787afd815d07a83c1993cf624cd6f9d5d012be318b0763ce", by decide +kernel,
    by decide +kernel⟩
  statusBytes _ := 539

def pcapngUpload : CaptureIntakeRequest where
  originalFilename := "dup.pcapng"
  policyProfile := .ietfCurrent
  chunks := [[0x0a, 0x0d, 0x0d, 0x0a], [0x01, 0x02]]

def uploadKey : CaptureKey := pcapngUpload.key (uploadHost.sha256 pcapngUpload.contents)

def tokenA : Token := ⟨"1111111111111111", by decide +kernel, by decide +kernel⟩

def tokenB : Token := ⟨"2222222222222222", by decide +kernel, by decide +kernel⟩

/-- The run that a trace describes. -/
def runIntakes (store : JobStore) (trace : List (Bool × IntakeAction)) : Option (Intakes Bool) :=
  trace.foldlM (fun s a =>
    (advance uploadHost pcapngUpload s.store (s.progress a.1) a.2).map (s.put a.1))
    (Intakes.start store)

/-- The jobs of the key and the jobs that two callers are given, by their names. -/
def givenRuns (s : Intakes Bool) : List String × Option String × Option String :=
  ((s.store.reusable uploadKey).map (·.runId.text),
    (s.progress false).returned?.map (·.runId.text), (s.progress true).returned?.map (·.runId.text))

theorem givenRuns_eq {s : Intakes Bool} {jobs : List String} {first second : Option String}
    (h : givenRuns s = (jobs, first, second)) :
    (s.store.reusable uploadKey).map (·.runId.text) = jobs ∧
      (s.progress false).returned?.map (·.runId.text) = first ∧
      (s.progress true).returned?.map (·.runId.text) = second := by
  simpa [givenRuns] using h

theorem run_of_runIntakes {store : JobStore} {trace : List (Bool × IntakeAction)} {final : Intakes Bool}
    (h : runIntakes store trace = some final) :
    Run (IntakeStep uploadHost fun _ => pcapngUpload) (Intakes.start store) trace final := by
  refine Run.of_foldlM ?_ h
  rintro s a t hnext
  obtain ⟨moved, hmoved, rfl⟩ := Option.map_eq_some_iff.mp hnext
  exact ⟨moved, hmoved, rfl⟩

/-- Two searches before the first commit. -/
def searchedTwice : List (Bool × IntakeAction) :=
  [(false, .stage tokenA), (true, .stage tokenB), (false, .search), (true, .search),
    (false, .commit tokenA 0), (true, .commit tokenB 0)]

/-- The second caller searches after the first has committed. -/
def searchedInTurn : List (Bool × IntakeAction) :=
  [(false, .stage tokenA), (true, .stage tokenB), (false, .search), (false, .commit tokenA 0),
    (true, .search), (true, .abort)]

theorem complete_of_returned? {s : Intakes Bool} {first second : String}
    (hfirst : (s.progress false).returned?.map (·.runId.text) = some first)
    (hsecond : (s.progress true).returned?.map (·.runId.text) = some second) : s.Complete := by
  intro i
  have hsome : ∃ job, (s.progress i).returned? = some job := by
    cases i with
    | false =>
      obtain ⟨job, hjob, -⟩ := Option.map_eq_some_iff.mp hfirst
      exact ⟨job, hjob⟩
    | true =>
      obtain ⟨job, hjob, -⟩ := Option.map_eq_some_iff.mp hsecond
      exact ⟨job, hjob⟩
  obtain ⟨job, hjob⟩ := hsome
  exact ⟨.ok job, IntakeProgress.returned?_eq_some_iff.mp hjob⟩

theorem two_jobs_of_one_capture : ∃ final,
    Run (IntakeStep uploadHost fun _ : Bool => pcapngUpload) (Intakes.start {}) searchedTwice final ∧
      final.Complete ∧ (final.store.reusable uploadKey).length = 2 ∧ ¬ Idempotent uploadKey final := by
  have hgiven : (runIntakes {} searchedTwice).map givenRuns =
      some (["r1111111111111111", "r2222222222222222"], some "r1111111111111111",
        some "r2222222222222222") := by decide +kernel
  obtain ⟨final, hfinal, hruns⟩ := Option.map_eq_some_iff.mp hgiven
  obtain ⟨hjobs, hfirst, hsecond⟩ := givenRuns_eq hruns
  have htwo : (final.store.reusable uploadKey).length = 2 := by
    simpa using congrArg List.length hjobs
  refine ⟨final, run_of_runIntakes hfinal, complete_of_returned? hfirst hsecond, htwo, ?_⟩
  rintro ⟨hone, -⟩
  omega

theorem one_job_of_one_capture : ∃ final,
    Run (IntakeStep uploadHost fun _ : Bool => pcapngUpload) (Intakes.start {}) searchedInTurn final ∧
      Idempotent uploadKey final ∧
      Run (fun s a t => IntakeStep uploadHost (fun _ : Bool => pcapngUpload) s a t ∧
        Orderly (fun _ => pcapngUpload) s a) (Intakes.start {}) searchedInTurn final := by
  have hgiven : (runIntakes {} searchedInTurn).map givenRuns =
      some (["r1111111111111111"], some "r1111111111111111", some "r1111111111111111") := by
    decide +kernel
  obtain ⟨final, hfinal, hruns⟩ := Option.map_eq_some_iff.mp hgiven
  obtain ⟨hjobs, hfirst, hsecond⟩ := givenRuns_eq hruns
  have hrun := run_of_runIntakes hfinal
  have hcomplete := complete_of_returned? hfirst hsecond
  have hidempotent : Idempotent uploadKey final := by
    refine ⟨by simpa using (congrArg List.length hjobs).le, ?_⟩
    obtain ⟨stored, hstored, hname⟩ : ∃ stored ∈ final.store.reusable uploadKey,
        stored.runId.text = "r1111111111111111" := List.mem_map.mp (hjobs ▸ List.mem_singleton_self _)
    have hreturned : ∀ i, (final.progress i).returned?.map (·.runId.text) = some "r1111111111111111" := by
      rintro (_ | _)
      · exact hfirst
      · exact hsecond
    intro i
    obtain ⟨job, hjob, hrunId⟩ := Option.map_eq_some_iff.mp (hreturned i)
    exact ⟨job, IntakeProgress.returned?_eq_some_iff.mp hjob, stored, hstored,
      Identifier.eq_of_text (hname.trans hrunId.symm)⟩
  exact ⟨final, hrun, hidempotent,
    ((intakes_idempotent_iff (fun _ => rfl) hrun hcomplete).mp hidempotent).2⟩

end Jobs
end SecureMail
