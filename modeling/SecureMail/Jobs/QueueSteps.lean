import SecureMail.Jobs.Queue
import SecureMail.Lib.Fallible

/-!
# What a step of the queue does

A step takes in one new job, queued, or moves the jobs that are there along the status machine: queued
to running, running to an end, or queued to cancelled at once. The job that the worker executes is
running until the worker ends it, so none of its updates is refused.

This is the inversion of the step relation, said once. Each party has its own relation between the
status before and after (`Works`, `Cancels`, the claim), all of them within `Moves`, and a step is one
job more or every job moved by one of these. The laws over runs, the lives of a job and the order in
which jobs are claimed, take their cases from `Changes` and never look into a call again.
-/

namespace SecureMail
namespace Jobs

open Transition

/-! ## What a step does to the records -/

/-- The moves of the status machine. The statuses of a job are a path in this relation, whatever the
parties do in between. -/
inductive Moves : AnalysisStatus → AnalysisStatus → Prop
  | stays {status : AnalysisStatus} : Moves status status
  | starts : Moves .queued .running
  | ends {status : AnalysisStatus} : status.isTerminal = true → Moves .running status
  | cancelled : Moves .queued .cancelled

/-- Every job is still there with its record moved by `R`, and there is no new one. All else about a
job, its names, its capture and the time of its intake, is as it was. -/
structure Evolves (R : AnalysisStatus → AnalysisStatus → Prop) (root root' : DataRoot) : Prop where
  absent : ∀ name, root.getJob name = none → root'.getJob name = none
  present : ∀ name job, root.getJob name = some job → ∃ record,
    root'.getJob name = some { job with record := record } ∧ R job.record.status record.status

/-- One job more, queued. -/
structure Accepts (root : DataRoot) (job : CaptureJob) (root' : DataRoot) : Prop where
  fresh : root.getJob job.runId.text = none
  queued : job.record.status = .queued
  getJob : ∀ name, root'.getJob name =
    if name = job.runId.text then some job.serialized else root.getJob name

def DataRoot.statusOf (root : DataRoot) (runId : String) : Option AnalysisStatus :=
  (root.getJob runId).map (·.record.status)

section

variable {R R' : AnalysisStatus → AnalysisStatus → Prop} {root root' : DataRoot} {runId : String}
  {job : CaptureJob}

theorem Evolves.mono (h : Evolves R root root') (hR : ∀ s s', R s s' → R' s s') :
    Evolves R' root root' := by
  refine ⟨h.absent, ?_⟩
  intro name job hjob
  obtain ⟨record, hrecord, hmoved⟩ := h.present name job hjob
  exact ⟨record, hrecord, hR _ _ hmoved⟩

theorem Evolves.of_getJob (h : ∀ name, root'.getJob name = root.getJob name) :
    Evolves (fun s s' => s' = s) root root' := by
  refine ⟨?_, ?_⟩
  · intro name hnone
    rw [h, hnone]
  · intro name job hjob
    exact ⟨job.record, by rw [h, hjob], rfl⟩

theorem Evolves.statusOf (h : Evolves R root root') {status : AnalysisStatus}
    (hstatus : root.statusOf runId = some status) :
    ∃ status', root'.statusOf runId = some status' ∧ R status status' := by
  obtain ⟨job, hjob, rfl⟩ := Option.map_eq_some_iff.mp hstatus
  obtain ⟨record, hrecord, hmoved⟩ := h.present runId job hjob
  refine ⟨record.status, ?_, hmoved⟩
  rw [DataRoot.statusOf, hrecord, Option.map_some]

theorem Evolves.statusOf_none (h : Evolves R root root') (hnone : root.statusOf runId = none) :
    root'.statusOf runId = none := by
  rw [DataRoot.statusOf, Option.map_eq_none_iff] at hnone ⊢
  exact h.absent runId hnone

theorem evolves_put (hroot : root.WellFormed) (hjob : root.getJob runId = some job)
    {record : AnalysisJob} {flag : Bool} (hR : ∀ s, R s s)
    (hmoved : R job.record.status record.status) :
    Evolves R root (root.put runId { job with record := record } flag) := by
  have hcut : job.createdAt - job.createdAt % 1000000 = job.createdAt :=
    congrArg CaptureJob.createdAt (hroot.serialized_of_getJob hjob)
  have hserialized : ({ job with record := record } : CaptureJob).serialized =
      { job with record := record } := by
    unfold CaptureJob.serialized
    simp only [hcut]
  refine ⟨?_, ?_⟩
  · intro name hnone
    rw [DataRoot.getJob_put hjob]
    by_cases hname : name = runId
    · rw [hname, hjob] at hnone
      cases hnone
    · rw [if_neg hname, hnone]
  · intro name other hother
    rw [DataRoot.getJob_put hjob]
    by_cases hname : name = runId
    · subst hname
      obtain rfl : job = other := Option.some.inj (hjob.symm.trans hother)
      exact ⟨record, by rw [if_pos rfl, hserialized], hmoved⟩
    · exact ⟨other.record, by rw [if_neg hname, hother], hR _⟩

/-! ## Intake -/

theorem commitStaged_entries {host : Host} {store store' : JobStore} {uploadId : Identifier}
    (h : store.commitStaged host uploadId job = .ok store') :
    (∀ entry ∈ store.entries, entry.name ≠ job.runId.text) ∧
      ∃ bytes, store'.entries = ⟨job.runId.text, some job.serialized, bytes⟩ :: store.entries := by
  unfold JobStore.commitStaged at h
  cases hstaged : store.quarantine.lookup uploadId with
  | none =>
    rw [hstaged] at h
    cases h
  | some size =>
    rw [hstaged] at h
    dsimp only at h
    split at h
    · cases h
    · split at h
      · cases h
      · split at h
        · cases h
        · rename_i hname
          obtain rfl := Except.ok.inj h
          exact ⟨by simpa [List.any_eq_true] using hname, _, rfl⟩

/-- The fields of a new job that the queue goes by. -/
theorem fields_of_newJob {request : CaptureIntakeRequest} {upload : StagedCapture} {token : Token}
    {now : Int} (h : newJob request upload token now = .ok job) :
    job.runId = runIdOf token ∧ job.createdAt = now ∧
      job.record = { status := .queued, stage := .intake } := by
  unfold newJob at h
  obtain ⟨filename, -, h⟩ := Fallible.bind_eq_ok.mp h
  obtain ⟨format, -, h⟩ := Fallible.bind_eq_ok.mp h
  obtain ⟨caseId, -, h⟩ := Fallible.bind_eq_ok.mp h
  obtain rfl := Fallible.pure_eq_ok.mp h
  exact ⟨rfl, rfl, rfl⟩

/-- What a step of an intake hands back to its caller as a new job. -/
def accepted? : IntakeAction → IntakeProgress → Option CaptureJob
  | .commit _ _, .returned (.ok job) => some job
  | _, _ => none

/-- Only a commit changes the directories, by the one of a new job. -/
theorem advance_entries {host : Host} {request : CaptureIntakeRequest} {store : JobStore}
    {progress : IntakeProgress} {action : IntakeAction} {moved : JobStore × IntakeProgress}
    (h : advance host request store progress action = some moved) :
    accepted? action moved.2 = none ∧ moved.1.entries = store.entries ∨
      ∃ token now job bytes, action = .commit token now ∧ accepted? action moved.2 = some job ∧
        job.runId = runIdOf token ∧ job.createdAt = now ∧
        job.record = { status := .queued, stage := .intake } ∧
        (∀ entry ∈ store.entries, entry.name ≠ job.runId.text) ∧
        moved.1.entries = ⟨job.runId.text, some job.serialized, bytes⟩ :: store.entries := by
  unfold advance at h
  split at h
  · split at h
    · obtain rfl := Option.some.inj h
      exact Or.inl ⟨rfl, rfl⟩
    · rename_i hstage
      obtain rfl := Option.some.inj h
      obtain ⟨-, -, hstore, -⟩ := of_stage_eq_ok hstage
      exact Or.inl ⟨rfl, by rw [hstore]; rfl⟩
    · rename_i hstage
      obtain rfl := Option.some.inj h
      obtain ⟨-, -, hstore, -⟩ := of_stage_eq_ok hstage
      exact Or.inl ⟨rfl, by rw [hstore]; rfl⟩
  · split at h
    · split at h
      · obtain rfl := Option.some.inj h
        exact Or.inl ⟨rfl, rfl⟩
      · obtain rfl := Option.some.inj h
        exact Or.inl ⟨rfl, rfl⟩
    · obtain rfl := Option.some.inj h
      exact Or.inl ⟨rfl, rfl⟩
  · rename_i upload token now
    split at h
    · obtain rfl := Option.some.inj h
      exact Or.inl ⟨rfl, rfl⟩
    · rename_i job hjob
      split at h
      · obtain rfl := Option.some.inj h
        exact Or.inl ⟨rfl, rfl⟩
      · rename_i store' hcommit
        obtain rfl := Option.some.inj h
        obtain ⟨hfresh, bytes, hentries⟩ := commitStaged_entries hcommit
        obtain ⟨hrunId, hcreated, hrecord⟩ := fields_of_newJob hjob
        exact Or.inr ⟨token, now, job, bytes, rfl, rfl, hrunId, hcreated, hrecord, hfresh, hentries⟩
  · obtain rfl := Option.some.inj h
    exact Or.inl ⟨rfl, rfl⟩
  · cases h

theorem wellFormed_accepts {store' : JobStore} {bytes : Nat} (hroot : root.WellFormed)
    (hfresh : ∀ entry ∈ root.store.entries, entry.name ≠ job.runId.text)
    (hrecord : job.record = { status := .queued, stage := .intake })
    (hentries : store'.entries =
      ⟨job.runId.text, some job.serialized, bytes⟩ :: root.store.entries) :
    { root with store := store' : DataRoot }.WellFormed ∧
      Accepts root job { root with store := store' } := by
  have hmem : ∀ entry ∈ store'.entries, ∀ stored, entry.job = some stored →
      entry.name = job.runId.text ∧ stored = job.serialized ∨ entry ∈ root.store.entries := by
    intro entry hentry stored hstored
    rw [hentries] at hentry
    rcases List.mem_cons.mp hentry with rfl | hold
    · exact Or.inl ⟨rfl, (Option.some.inj hstored).symm⟩
    · exact Or.inr hold
  refine ⟨⟨?_, ?_, ?_, ?_⟩, ⟨?_, by rw [hrecord], ?_⟩⟩
  · show (store'.entries.map (·.name)).Nodup
    rw [hentries, List.map_cons, List.nodup_cons]
    refine ⟨?_, hroot.names⟩
    intro hname
    obtain ⟨entry, hentry, heq⟩ := List.mem_map.mp hname
    exact hfresh entry hentry heq
  · intro entry hentry stored hstored
    rcases hmem entry hentry stored hstored with ⟨hname, rfl⟩ | hold
    · exact hname.symm
    · exact hroot.runId entry hold stored hstored
  · intro entry hentry stored hstored
    rcases hmem entry hentry stored hstored with ⟨-, rfl⟩ | hold
    · exact job.serialized_serialized
    · exact hroot.stored entry hold stored hstored
  · intro entry hentry stored hstored hqueued
    rcases hmem entry hentry stored hstored with ⟨-, rfl⟩ | hold
    · show job.record.cancelRequested = false
      rw [hrecord]
    · exact hroot.unmarked entry hold stored hstored hqueued
  · cases hjob : root.getJob job.runId.text with
    | none => rfl
    | some other =>
      obtain ⟨entry, hentry, hname, -⟩ := DataRoot.exists_entry hjob
      exact absurd hname (hfresh entry hentry)
  · intro name
    unfold DataRoot.getJob
    show (if isIdentifier name = true then (store'.entries.find? (·.name = name)).bind (·.job)
      else none) = _
    rw [hentries]
    by_cases hname : name = job.runId.text
    · subst hname
      rw [if_pos job.runId.valid, if_pos rfl, List.find?_cons_of_pos (by simp)]
      rfl
    · rw [if_neg hname, List.find?_cons_of_neg (by simpa using Ne.symm hname)]

/-! ## The worker -/

/-- What the worker relies on: the job it executes is running. No other party changes the status of
a running job, so it stays true between the steps of the worker. -/
def Execution.Agrees (root : DataRoot) : Execution → Prop
  | .idle => True
  | .claimed runId | .failing runId _ => root.statusOf runId = some .running
  | .stages runId rest =>
    rest ∈ scripts ∧ (rest ≠ [] → root.statusOf runId = some .running)
  | .died _ => False

theorem Execution.Agrees.of_running {w : Execution}
    (hrunning : ∀ runId, root.statusOf runId = some .running → root'.statusOf runId = some .running)
    (h : w.Agrees root) : w.Agrees root' := by
  cases w with
  | idle => trivial
  | claimed runId => exact hrunning runId h
  | failing runId exc => exact hrunning runId h
  | stages runId rest => exact ⟨h.1, fun hne => hrunning runId (h.2 hne)⟩
  | died error => exact h

/-- A running job is moved to its end or stays. -/
inductive Works : AnalysisStatus → AnalysisStatus → Prop
  | stays {status : AnalysisStatus} : Works status status
  | ends {status : AnalysisStatus} : status.isTerminal = true → Works .running status

theorem Works.moves {s s' : AnalysisStatus} (h : Works s s') : Moves s s' := by
  cases h with
  | stays => exact .stays
  | ends hterminal => exact .ends hterminal

/-- An update of a running job that puts it to an end or leaves its status. -/
theorem exec_update_running {u : JobUpdate} {outcome : Except JobError CaptureJob}
    (hroot : root.WellFormed) (hrunning : root.statusOf runId = some .running)
    (hu : u.status = none ∨ u.endsRun = true)
    (h : exec (updateJob runId u.arguments) root = (outcome, root')) :
    (∃ job, outcome = .ok job) ∧ root'.WellFormed ∧ Evolves Works root root' ∧
      (u.status = none → root'.statusOf runId = some .running) := by
  obtain ⟨job, hjob, hstatus⟩ := Option.map_eq_some_iff.mp hrunning
  have hguard : u.refuses job.record = false := refuses_of_running hstatus
  rw [exec_update u hjob, hguard] at h
  obtain ⟨rfl, rfl⟩ := Prod.mk.inj h
  have hmoved : Works job.record.status (u.patch job.record).status := by
    rcases hu with hnone | hends
    · rw [JobUpdate.patch_status, hnone]
      exact .stays
    · rw [hstatus]
      refine .ends ?_
      have hterminal := @JobUpdate.isTerminal_patch u job.record
      rw [hends, Bool.true_or] at hterminal
      exact hterminal
  refine ⟨⟨_, rfl⟩, hroot.put hjob ?_, evolves_put hroot hjob (fun _ => .stays) hmoved, ?_⟩
  · intro hqueued
    rw [hstatus] at hmoved
    rw [hqueued] at hmoved
    cases hmoved with
    | ends hterminal => exact absurd hterminal (by decide)
  · intro hnone
    rw [DataRoot.statusOf, DataRoot.getJob_put hjob, if_pos rfl, Option.map_some]
    show some (u.patch job.record).status = some .running
    rw [JobUpdate.patch_status, hnone, Option.getD_none, hstatus]

/-- The status an update of the body sets is its last word. -/
theorem status_of_script {u : JobUpdate} {rest : List Instr} (h : .update u :: rest ∈ scripts) :
    (u.status = none ∨ u.endsRun = true) ∧ (rest ≠ [] → u.status = none) := by
  have hsettles := settles_of_mem_scripts _ h
  rw [settles, Bool.and_eq_true, Bool.and_eq_true] at hsettles
  obtain ⟨⟨-, hstatus⟩, -⟩ := hsettles
  cases rest with
  | nil => exact ⟨Or.inr hstatus, fun hne => absurd rfl hne⟩
  | cons i rest =>
    have hnone : u.status = none := by simpa using hstatus
    exact ⟨Or.inl hnone, fun _ => hnone⟩

theorem ExecutionStep.effect {w w' : Execution} (h : ExecutionStep root w root' w')
    (hroot : root.WellFormed) (hw : w.Agrees root) :
    root'.WellFormed ∧ w'.Agrees root' ∧ Evolves Works root root' := by
  have hsame : Evolves Works root root := (Evolves.of_getJob fun _ => rfl).mono (by
    rintro s s' rfl
    exact .stays)
  cases h with
  | start hjob hrunning =>
    refine ⟨hroot, ⟨executeStages_mem_scripts, fun _ => hw⟩, hsame⟩
  | notRunning => exact ⟨hroot, trivial, hsame⟩
  | unknown hnone =>
    obtain ⟨job, hjob, -⟩ := Option.map_eq_some_iff.mp hw
    rw [hnone] at hjob
    cases hjob
  | cancelled =>
    exact ⟨hroot, ⟨markCancelled_mem_scripts, fun _ => hw.2 (List.cons_ne_nil _ _)⟩, hsame⟩
  | clear =>
    exact ⟨hroot, ⟨mem_scripts_of_cons hw.1, fun _ => hw.2 (List.cons_ne_nil _ _)⟩, hsame⟩
  | update hupdate =>
    obtain ⟨hstatus, hlast⟩ := status_of_script hw.1
    obtain ⟨-, hroot', hevolves, hrunning⟩ :=
      exec_update_running hroot (hw.2 (List.cons_ne_nil _ _)) hstatus hupdate
    exact ⟨hroot', ⟨mem_scripts_of_cons hw.1, fun hne => hrunning (hlast hne)⟩, hevolves⟩
  | updateRaised hupdate =>
    obtain ⟨hstatus, -⟩ := status_of_script hw.1
    obtain ⟨⟨job, hok⟩, -⟩ :=
      exec_update_running hroot (hw.2 (List.cons_ne_nil _ _)) hstatus hupdate
    cases hok
  | call =>
    exact ⟨hroot, ⟨mem_scripts_of_cons hw.1, fun _ => hw.2 (List.cons_ne_nil _ _)⟩, hsame⟩
  | raised => exact ⟨hroot, hw.2 (List.cons_ne_nil _ _), hsame⟩
  | returned => exact ⟨hroot, trivial, hsame⟩
  | failed hupdate =>
    obtain ⟨-, hroot', hevolves, -⟩ := exec_update_running hroot hw (Or.inr rfl) hupdate
    exact ⟨hroot', trivial, hevolves⟩
  | failRaised hupdate =>
    obtain ⟨⟨job, hok⟩, -⟩ := exec_update_running hroot hw (Or.inr rfl) hupdate
    cases hok

/-! ## The other parties -/

/-- A request cancels a queued job and leaves the status of every other. -/
inductive Cancels : AnalysisStatus → AnalysisStatus → Prop
  | stays {status : AnalysisStatus} : Cancels status status
  | cancelled : Cancels .queued .cancelled

theorem Cancels.moves {s s' : AnalysisStatus} (h : Cancels s s') : Moves s s' := by
  cases h with
  | stays => exact .stays
  | cancelled => exact .cancelled

theorem requestCancel_effect {outcome : Except JobError CaptureJob} (hroot : root.WellFormed)
    (h : exec (requestCancel runId) root = (outcome, root')) :
    root'.WellFormed ∧ Evolves Cancels root root' := by
  have hsame : Evolves Cancels root root := (Evolves.of_getJob fun _ => rfl).mono (by
    rintro s s' rfl
    exact .stays)
  unfold requestCancel at h
  rw [exec_bind, exec_get] at h
  cases hjob : root.getJob runId with
  | none =>
    simp only [hjob, exec_throw] at h
    obtain ⟨-, rfl⟩ := Prod.mk.inj h
    exact ⟨hroot, hsame⟩
  | some job =>
    simp only [hjob] at h
    by_cases hterminal : job.record.isTerminal = true
    · simp only [hterminal, if_true, exec_bind, exec_throw] at h
      obtain ⟨-, rfl⟩ := Prod.mk.inj h
      exact ⟨hroot, hsame⟩
    · have hguard : (cancelUpdate job.record).refuses job.record = false := by
        rw [JobUpdate.refuses_eq_false_iff]
        exact Or.inr (by simpa using hterminal)
      simp only [hterminal, Bool.false_eq_true, if_false, exec_update _ hjob, hguard] at h
      obtain ⟨-, rfl⟩ := Prod.mk.inj h
      have hmoved : Cancels job.record.status
          ((cancelUpdate job.record).patch job.record).status := by
        rw [JobUpdate.patch_status]
        rcases cancelUpdate_status job.record with ⟨hnone, -⟩ | ⟨hsome, hqueued⟩
        · rw [hnone]
          exact .stays
        · rw [hsome, hqueued]
          exact .cancelled
      refine ⟨hroot.put hjob ?_, evolves_put hroot hjob (fun _ => .stays) hmoved⟩
      intro hstill
      rw [JobUpdate.patch_status] at hstill
      rcases cancelUpdate_status job.record with ⟨hnone, hnot⟩ | ⟨hsome, -⟩
      · rw [hnone] at hstill
        exact absurd hstill hnot
      · rw [hsome] at hstill
        cases hstill

/-- What `claim_next` does: nothing if there is nothing to claim, and else it claims the first job in
order of creation. -/
inductive Claiming (root : DataRoot) : Option CaptureJob → DataRoot → Prop
  | nothing : root.claimable = [] → Claiming root none root
  | oldest {first : CaptureJob} {rest : List CaptureJob} :
      root.claimable.insertionSort (SortKey.Before JobStore.creationOrder) = first :: rest →
      Claiming root (some first.running)
        (root.put first.runId.text first.running (root.cancelFlag first.runId.text))

theorem claimNext_claims (hroot : root.WellFormed) :
    ∃ claimed root', exec claimNext root = (.ok claimed, root') ∧ Claiming root claimed root' := by
  cases hsorted : root.claimable.insertionSort (SortKey.Before JobStore.creationOrder) with
  | nil =>
    have hlength := congrArg List.length hsorted
    rw [List.length_insertionSort] at hlength
    have hnone : root.claimable = [] := List.length_eq_zero_iff.mp hlength
    exact ⟨none, root, exec_claimNext_none hroot hnone, .nothing hnone⟩
  | cons first rest =>
    exact ⟨_, _, exec_claimNext_some hroot hsorted, .oldest hsorted⟩

theorem claiming_of_exec {outcome : Except JobError (Option CaptureJob)} (hroot : root.WellFormed)
    (h : exec claimNext root = (outcome, root')) :
    ∃ claimed, outcome = .ok claimed ∧ Claiming root claimed root' := by
  obtain ⟨claimed, root'', hexec, hclaims⟩ := claimNext_claims hroot
  obtain ⟨rfl, rfl⟩ := Prod.mk.inj (hexec.symm.trans h)
  exact ⟨claimed, rfl, hclaims⟩

/-- A claimed job was there, queued and not to be cancelled. -/
theorem mem_claimable_of_sorted {first : CaptureJob} {rest : List CaptureJob}
    (hsorted : root.claimable.insertionSort (SortKey.Before JobStore.creationOrder) = first :: rest) :
    first ∈ root.claimable := by
  rw [← List.mem_insertionSort (SortKey.Before JobStore.creationOrder), hsorted]
  exact List.mem_cons_self

theorem getJob_of_mem_claimable (hroot : root.WellFormed) (h : job ∈ root.claimable) :
    root.getJob job.runId.text = some job ∧ job.record.status = .queued := by
  obtain ⟨hlisted, hclaimable⟩ := List.mem_filter.mp h
  exact ⟨hroot.getJob_of_mem hlisted, (CaptureJob.claimable_iff.mp hclaimable).1⟩

theorem Claiming.effect {claimed : Option CaptureJob} (h : Claiming root claimed root')
    (hroot : root.WellFormed) :
    root'.WellFormed ∧ Evolves Moves root root' ∧
      ∀ job, claimed = some job → root.statusOf job.runId.text = some .queued ∧
        root'.statusOf job.runId.text = some .running := by
  cases h with
  | nothing =>
    refine ⟨hroot, (Evolves.of_getJob fun _ => rfl).mono ?_, ?_⟩
    · rintro s s' rfl
      exact .stays
    · intro job hjob
      cases hjob
  | @oldest first rest hsorted =>
    obtain ⟨hjob, hqueued⟩ := getJob_of_mem_claimable hroot (mem_claimable_of_sorted hsorted)
    refine ⟨hroot.put hjob ?_, evolves_put hroot hjob (fun _ => .stays) ?_, ?_⟩
    · intro hstill
      cases hstill
    · rw [hqueued]
      exact .starts
    · intro job hclaimed
      obtain rfl := Option.some.inj hclaimed
      refine ⟨?_, ?_⟩
      · show (root.getJob first.runId.text).map _ = _
        rw [hjob, Option.map_some, hqueued]
      · show ((root.put _ _ _).getJob first.runId.text).map _ = _
        rw [DataRoot.getJob_put hjob, if_pos rfl]
        rfl

theorem DataRoot.Resized.getJob (h : root.Resized root') (name : String) :
    root'.getJob name = root.getJob name := by
  obtain ⟨-, -, -, -, hentries⟩ := h
  have hpairs : ∀ entries : List JobEntry, (entries.find? (·.name = name)).bind (·.job) =
      ((entries.map fun entry => (entry.name, entry.job)).find? (·.1 = name)).bind (·.2) := by
    intro entries
    have hname : (fun pair : String × Option CaptureJob => decide (pair.1 = name)) ∘
        (fun entry : JobEntry => (entry.name, entry.job)) = fun entry => decide (entry.name = name) :=
      rfl
    rw [List.find?_map, hname]
    cases entries.find? (·.name = name) with
    | none => rfl
    | some entry => rfl
  unfold DataRoot.getJob
  rw [hpairs, hpairs, hentries]

theorem DataRoot.Resized.wellFormed (h : root.Resized root') (hroot : root.WellFormed) :
    root'.WellFormed := by
  obtain ⟨-, -, -, -, hentries⟩ := h
  -- An entry has the name and the record of an old one.
  have hold : ∀ entry ∈ root'.store.entries, ∃ old ∈ root.store.entries,
      old.name = entry.name ∧ old.job = entry.job := by
    intro entry hentry
    have hmem : (entry.name, entry.job) ∈
        root.store.entries.map fun entry => (entry.name, entry.job) := by
      rw [← hentries]
      exact List.mem_map.mpr ⟨entry, hentry, rfl⟩
    obtain ⟨old, hmem, heq⟩ := List.mem_map.mp hmem
    exact ⟨old, hmem, (Prod.mk.inj heq).1, (Prod.mk.inj heq).2⟩
  refine ⟨?_, ?_, ?_, ?_⟩
  · have hnames := congrArg (List.map Prod.fst) hentries
    rw [List.map_map, List.map_map] at hnames
    show (root'.store.entries.map (Prod.fst ∘ fun entry => (entry.name, entry.job))).Nodup
    rw [hnames]
    exact hroot.names
  · intro entry hentry job hjob
    obtain ⟨old, hmem, hname, hrecord⟩ := hold entry hentry
    rw [← hname]
    exact hroot.runId old hmem job (hrecord.trans hjob)
  · intro entry hentry job hjob
    obtain ⟨old, hmem, -, hrecord⟩ := hold entry hentry
    exact hroot.stored old hmem job (hrecord.trans hjob)
  · intro entry hentry job hjob
    obtain ⟨old, hmem, -, hrecord⟩ := hold entry hentry
    exact hroot.unmarked old hmem job (hrecord.trans hjob)

/-! ## A step -/

/-- What every step keeps. -/
structure Queue.Consistent {ι : Type*} (q : Queue ι) : Prop where
  wellFormed : q.root.WellFormed
  worker : q.worker.Agrees q.root

/-- The job a step takes in. -/
def QueueAction.accepted? {ι : Type*} : QueueAction ι → Option CaptureJob
  | .intake _ action after => Jobs.accepted? action after
  | _ => none

/-- The run that a step claims. -/
def QueueAction.claimed? {ι : Type*} : QueueAction ι → Option String
  | .claim (some job) => some job.runId.text
  | _ => none

/-- What a step does to the records: they move on, or there is one more. -/
inductive Changes (root : DataRoot) (root' : DataRoot) : Option CaptureJob → Prop
  | moved : Evolves Moves root root' → Changes root root' none
  | accepted {job : CaptureJob} : Accepts root job root' → Changes root root' (some job)

theorem Evolves.running (h : Evolves Cancels root root')
    (hrunning : root.statusOf runId = some .running) : root'.statusOf runId = some .running := by
  obtain ⟨status, hstatus, hmoved⟩ := h.statusOf hrunning
  cases hmoved with
  | stays => exact hstatus

theorem Accepts.statusOf (h : Accepts root job root') {status : AnalysisStatus}
    (hstatus : root.statusOf runId = some status) : root'.statusOf runId = some status := by
  have hne : runId ≠ job.runId.text := by
    rintro rfl
    rw [DataRoot.statusOf, h.fresh] at hstatus
    cases hstatus
  rw [DataRoot.statusOf, h.getJob, if_neg hne]
  exact hstatus

variable {ι : Type*} [DecidableEq ι] {host : Host} {requests : ι → CaptureIntakeRequest}
  {q q' : Queue ι} {a : QueueAction ι}

theorem QueueStep.effect (h : QueueStep host requests q a q') (hq : q.Consistent) :
    q'.Consistent ∧ Changes q.root q'.root a.accepted? := by
  obtain ⟨hroot, hworker⟩ := hq
  cases h with
  | @intake i action moved hmoved =>
    rcases advance_entries hmoved with ⟨hnone, hentries⟩ | ⟨token, now, job, bytes, -, hjob, -, -,
      hrecord, hfresh, hentries⟩
    · have hsame : ∀ name, ({ q.root with store := moved.1 } : DataRoot).getJob name =
          q.root.getJob name := by
        intro name
        unfold DataRoot.getJob
        show (if _ then (moved.1.entries.find? _).bind _ else _) = _
        rw [hentries]
      have hevolves := Evolves.of_getJob hsame
      refine ⟨⟨⟨?_, ?_, ?_, ?_⟩, hworker.of_running ?_⟩, ?_⟩
      · simpa only [hentries] using hroot.names
      · simpa only [hentries] using hroot.runId
      · simpa only [hentries] using hroot.stored
      · simpa only [hentries] using hroot.unmarked
      · intro runId hrunning
        rw [DataRoot.statusOf, hsame]
        exact hrunning
      · show Changes _ _ (Jobs.accepted? action moved.2)
        rw [hnone]
        refine .moved (hevolves.mono ?_)
        rintro s s' rfl
        exact .stays
    · obtain ⟨hroot', haccepts⟩ := wellFormed_accepts hroot hfresh hrecord hentries
      refine ⟨⟨hroot', hworker.of_running fun _ => haccepts.statusOf⟩, ?_⟩
      show Changes _ _ (Jobs.accepted? action moved.2)
      rw [hjob]
      exact .accepted haccepts
  | requestCancel hrequest =>
    obtain ⟨hroot', hevolves⟩ := requestCancel_effect hroot hrequest
    exact ⟨⟨hroot', hworker.of_running fun _ => hevolves.running⟩,
      .moved (hevolves.mono fun _ _ => Cancels.moves)⟩
  | claim hidle hclaim =>
    obtain ⟨claimed, hclaimed, hclaims⟩ := claiming_of_exec hroot hclaim
    obtain ⟨hroot', hevolves, hstatus⟩ := hclaims.effect hroot
    exact ⟨⟨hroot', (hstatus _ (Except.ok.inj hclaimed).symm).2⟩, .moved hevolves⟩
  | claimNone hidle hclaim =>
    obtain ⟨claimed, -, hclaims⟩ := claiming_of_exec hroot hclaim
    obtain ⟨hroot', hevolves, -⟩ := hclaims.effect hroot
    refine ⟨⟨hroot', ?_⟩, .moved hevolves⟩
    show q.worker.Agrees _
    rw [hidle]
    trivial
  | claimRaised hidle hclaim =>
    obtain ⟨claimed, hclaimed, -⟩ := claiming_of_exec hroot hclaim
    cases hclaimed
  | execute hexecute =>
    obtain ⟨hroot', hworker', hevolves⟩ := hexecute.effect hroot hworker
    exact ⟨⟨hroot', hworker'⟩, .moved (hevolves.mono fun _ _ => Works.moves)⟩
  | restart =>
    refine ⟨⟨hroot, trivial⟩, .moved ((Evolves.of_getJob fun _ => rfl).mono ?_)⟩
    rintro s s' rfl
    exact .stays
  | resize hresized =>
    refine ⟨⟨hresized.wellFormed hroot, hworker.of_running ?_⟩,
      .moved ((Evolves.of_getJob hresized.getJob).mono ?_)⟩
    · intro runId hrunning
      rw [DataRoot.statusOf, hresized.getJob]
      exact hrunning
    · rintro s s' rfl
      exact .stays

end

end Jobs
end SecureMail
