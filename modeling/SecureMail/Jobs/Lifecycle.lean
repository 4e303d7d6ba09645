import SecureMail.Jobs.QueueSteps

/-!
# The life of a job

The statuses a job has had, as a reader of `status.json` sees them between the steps, are always the
beginning of one of four lives. A job leaves the queue when it is claimed and does not come back, so
it is claimed once.

The history is defined from the trace alone, as what a reader who looks after every step would have
noted, and not kept in the state. An invariant ties the two: the statuses noted so far are a past of
the status that is there now (`Past`). A move of the status machine adds one status to a past or
leaves it, so the law of a whole run is the law of one step.

Here every update is one step, as it is under the lock of the store. With the accesses taken apart
the law is false, and `Jobs.Terminal` says by which of them.
-/

namespace SecureMail
namespace Jobs

open Transition

section

variable {ι : Type*} [DecidableEq ι] {host : Host} {requests : ι → CaptureIntakeRequest}
  {q q' : Queue ι} {a : QueueAction ι}

/-- A data root without jobs, and everybody about to begin. -/
def Queue.opened (store : JobStore) : Queue ι where
  root := { store := { store with entries := [] } }
  worker := .idle
  intakes := fun _ => .called

/-- A step, and the store a reader finds after it. The history of a status is what a reader can see,
so it is a list of stores and not of writes. -/
def SeenStep (host : Host) (requests : ι → CaptureIntakeRequest) (q : Queue ι)
    (seen : QueueAction ι × DataRoot) (q' : Queue ι) : Prop :=
  QueueStep host requests q seen.1 q' ∧ seen.2 = q'.root

/-- A status is noted when it is not the last one. -/
def observe (history : List AnalysisStatus) : Option AnalysisStatus → List AnalysisStatus
  | none => history
  | some status => if history.getLast? = some status then history else history ++ [status]

/-- The statuses a run has had, one after the other. -/
def history (trace : List (QueueAction ι × DataRoot)) (runId : String) : List AnalysisStatus :=
  trace.foldl (fun history seen => observe history (seen.2.statusOf runId)) []

/-- The four lives of a job. -/
def lives : List (List AnalysisStatus) :=
  [[.queued, .running, .completed], [.queued, .running, .failed], [.queued, .running, .cancelled],
    [.queued, .cancelled]]

/-- The runs that were claimed, in order. -/
def claims (trace : List (QueueAction ι × DataRoot)) : List String :=
  trace.filterMap (·.1.claimed?)

/-- The statuses a job can have had that has this one. A job that is cancelled has one of two pasts,
which is why a past is a relation and not a function of the status. -/
inductive Past : List AnalysisStatus → AnalysisStatus → Prop
  | queued : Past [.queued] .queued
  | running : Past [.queued, .running] .running
  | ended {status : AnalysisStatus} : status.isTerminal = true →
      Past [.queued, .running, status] status
  | cancelled : Past [.queued, .cancelled] .cancelled

omit [DecidableEq ι] in
theorem consistent_opened (store : JobStore) : (Queue.opened store : Queue ι).Consistent := by
  refine ⟨⟨List.nodup_nil, ?_, ?_, ?_⟩, trivial⟩
  · intro entry hentry
    exact absurd hentry List.not_mem_nil
  · intro entry hentry
    exact absurd hentry List.not_mem_nil
  · intro entry hentry
    exact absurd hentry List.not_mem_nil

theorem SeenStep.consistent {seen : QueueAction ι × DataRoot}
    (h : SeenStep host requests q seen q') (hq : q.Consistent) : q'.Consistent :=
  (h.1.effect hq).1

theorem Past.getLast? {statuses : List AnalysisStatus} {status : AnalysisStatus}
    (h : Past statuses status) : statuses.getLast? = some status := by
  cases h <;> rfl

/-- A move adds its status to the past, if it is one. -/
theorem Past.moves {statuses : List AnalysisStatus} {s s' : AnalysisStatus} (h : Past statuses s)
    (hmoved : Moves s s') : Past (observe statuses (some s')) s' := by
  unfold observe
  dsimp only
  rw [h.getLast?]
  cases hmoved with
  | stays =>
    rw [if_pos rfl]
    exact h
  | starts =>
    cases h with
    | queued => exact .running
    | ended hterminal => exact absurd hterminal (by decide)
  | ends hterminal =>
    cases h with
    | running =>
      have hne : some AnalysisStatus.running ≠ some s' := by
        intro heq
        rw [← Option.some.inj heq] at hterminal
        exact absurd hterminal (by decide)
      rw [if_neg hne]
      exact .ended hterminal
    | ended hrunning => exact absurd hrunning (by decide)
  | cancelled =>
    cases h with
    | queued => exact .cancelled
    | ended hterminal => exact absurd hterminal (by decide)

theorem Past.life {statuses : List AnalysisStatus} {status : AnalysisStatus}
    (h : Past statuses status) : ∃ life ∈ lives, statuses <+: life := by
  cases h with
  | queued => exact ⟨_, List.mem_cons_self, [.running, .completed], rfl⟩
  | running => exact ⟨_, List.mem_cons_self, [.completed], rfl⟩
  | ended hterminal =>
    refine ⟨[.queued, .running, status], ?_, List.prefix_refl _⟩
    cases status with
    | queued => exact absurd hterminal (by decide)
    | running => exact absurd hterminal (by decide)
    | completed => decide
    | failed => decide
    | cancelled => decide
  | cancelled => exact ⟨[.queued, .cancelled], by decide, List.prefix_refl _⟩

/-- The statuses seen so far are the past of the job, or there is none yet. -/
def Remembers (trace : List (QueueAction ι × DataRoot)) (q : Queue ι) : Prop :=
  ∀ runId, q.root.statusOf runId = none ∧ history trace runId = [] ∨
    ∃ status, q.root.statusOf runId = some status ∧ Past (history trace runId) status

theorem SeenStep.remembers {trace : List (QueueAction ι × DataRoot)} {seen : QueueAction ι × DataRoot}
    (h : SeenStep host requests q seen q') (hq : q.Consistent) (hpast : Remembers trace q) :
    Remembers (trace ++ [seen]) q' := by
  obtain ⟨hstep, hseen⟩ := h
  intro runId
  have hhistory : history (trace ++ [seen]) runId =
      observe (history trace runId) (q'.root.statusOf runId) := by
    rw [history, List.foldl_append, ← history, List.foldl_cons, List.foldl_nil, hseen]
  rw [hhistory]
  obtain ⟨-, hchanges⟩ := hstep.effect hq
  generalize seen.1.accepted? = accepted at hchanges
  cases hchanges with
  | moved hevolves =>
    rcases hpast runId with ⟨hnone, hnil⟩ | ⟨status, hstatus, hlived⟩
    · rw [hevolves.statusOf_none hnone]
      exact Or.inl ⟨rfl, hnil⟩
    · obtain ⟨status', hstatus', hmoved⟩ := hevolves.statusOf hstatus
      rw [hstatus']
      exact Or.inr ⟨status', rfl, hlived.moves hmoved⟩
  | @accepted job haccepts =>
    rcases hpast runId with ⟨hnone, hnil⟩ | ⟨status, hstatus, hlived⟩
    · by_cases hnew : runId = job.runId.text
      · have hqueued : q'.root.statusOf runId = some .queued := by
          rw [DataRoot.statusOf, haccepts.getJob, if_pos hnew, Option.map_some]
          exact congrArg some haccepts.queued
        rw [hqueued, hnil]
        exact Or.inr ⟨.queued, rfl, .queued⟩
      · have hstill : q'.root.statusOf runId = none := by
          rw [DataRoot.statusOf, haccepts.getJob, if_neg hnew]
          exact hnone
        rw [hstill]
        exact Or.inl ⟨rfl, hnil⟩
    · rw [haccepts.statusOf hstatus]
      exact Or.inr ⟨status, rfl, hlived.moves .stays⟩

/-- What was claimed is not queued any more, and was claimed once. A job that were queued again
after a claim could be executed twice. -/
def ClaimedOnce (trace : List (QueueAction ι × DataRoot)) (q : Queue ι) : Prop :=
  (claims trace).Nodup ∧ ∀ runId ∈ claims trace, ∃ status,
    q.root.statusOf runId = some status ∧ status ≠ .queued

theorem Moves.ne_queued {s s' : AnalysisStatus} (h : Moves s s') (hs : s ≠ .queued) :
    s' ≠ .queued := by
  cases h with
  | stays => exact hs
  | starts => exact absurd rfl hs
  | ends hterminal =>
    rintro rfl
    exact absurd hterminal (by decide)
  | cancelled => exact absurd rfl hs

/-- The statuses that are there, later. -/
theorem Changes.ne_queued {root root' : DataRoot} {accepted : Option CaptureJob}
    (h : Changes root root' accepted) {runId : String} {status : AnalysisStatus}
    (hstatus : root.statusOf runId = some status) (hne : status ≠ .queued) :
    ∃ status', root'.statusOf runId = some status' ∧ status' ≠ .queued := by
  cases h with
  | moved hevolves =>
    obtain ⟨status', hstatus', hmoved⟩ := hevolves.statusOf hstatus
    exact ⟨status', hstatus', hmoved.ne_queued hne⟩
  | accepted haccepts => exact ⟨status, haccepts.statusOf hstatus, hne⟩

theorem SeenStep.claimedOnce {trace : List (QueueAction ι × DataRoot)}
    {seen : QueueAction ι × DataRoot} (h : SeenStep host requests q seen q') (hq : q.Consistent)
    (hclaimed : ClaimedOnce trace q) : ClaimedOnce (trace ++ [seen]) q' := by
  obtain ⟨action, after⟩ := seen
  obtain ⟨hstep, -⟩ := h
  obtain ⟨hnodup, hstatuses⟩ := hclaimed
  have hold : ∀ runId ∈ claims trace, ∃ status,
      q'.root.statusOf runId = some status ∧ status ≠ .queued := by
    intro runId hrunId
    obtain ⟨status, hstatus, hne⟩ := hstatuses runId hrunId
    exact (hstep.effect hq).2.ne_queued hstatus hne
  have hclaims : claims (trace ++ [(action, after)]) = claims trace ++ action.claimed?.toList := by
    rw [claims, List.filterMap_append, ← claims]
    cases hcase : action.claimed? with
    | none => simp [hcase]
    | some runId => simp [hcase]
  rw [ClaimedOnce, hclaims]
  cases hcase : action.claimed? with
  | none =>
    simp only [Option.toList_none, List.append_nil]
    exact ⟨hnodup, hold⟩
  | some runId =>
    -- The run was queued when it was claimed, so it had not been claimed before.
    obtain ⟨hqueued, hrunning⟩ : q.root.statusOf runId = some .queued ∧
        q'.root.statusOf runId = some .running := by
      cases hstep with
      | claim hidle hclaim =>
        obtain ⟨claimed, hok, hclaims⟩ := claiming_of_exec hq.wellFormed hclaim
        obtain ⟨-, -, hstatus⟩ := hclaims.effect hq.wellFormed
        obtain rfl := Option.some.inj hcase
        exact hstatus _ (Except.ok.inj hok).symm
      | _ => cases hcase
    have hnew : runId ∉ claims trace := by
      intro hmem
      obtain ⟨status, hstatus, hne⟩ := hstatuses runId hmem
      exact hne (Option.some.inj (hstatus.symm.trans hqueued))
    refine ⟨?_, ?_⟩
    · rw [Option.toList_some, List.nodup_append]
      refine ⟨hnodup, List.nodup_singleton runId, ?_⟩
      intro other hother new hnewMem heq
      obtain rfl := List.mem_singleton.mp hnewMem
      exact hnew (heq ▸ hother)
    · intro other hother
      rcases List.mem_append.mp hother with hother | hother
      · exact hold other hother
      · obtain rfl : other = runId := by simpa using hother
        exact ⟨.running, hrunning, by decide⟩

/-- `claim_next` raises nothing here. It claims a job exactly when there is one to claim, and then the
one that was created first, ties by the run's name. -/
def ClaimsLeast (root : DataRoot) : Prop :=
  ∃ claimed root', exec claimNext root = (.ok claimed, root') ∧
    (claimed = none ↔ root.claimable = []) ∧
    ∀ job, claimed = some job → ∃ stored ∈ root.claimable, job = stored.running ∧
      ∀ other ∈ root.claimable, other ≠ stored → JobStore.creationOrder stored other = .lt

instance : Std.TransCmp JobStore.creationOrder :=
  inferInstanceAs (Std.TransCmp
    (compareLex (compareOn fun job : CaptureJob => job.createdAt)
      (compareOn fun job => job.runId.text)))

theorem claimsLeast {root : DataRoot} (hroot : root.WellFormed) : ClaimsLeast root := by
  obtain ⟨claimed, root', hexec, hclaims⟩ := claimNext_claims hroot
  refine ⟨claimed, root', hexec, ?_⟩
  cases hclaims with
  | nothing hnone =>
    refine ⟨iff_of_true rfl hnone, ?_⟩
    intro job hjob
    cases hjob
  | @oldest first rest hsorted =>
    have hmem := mem_claimable_of_sorted hsorted
    refine ⟨iff_of_false (by simp) (List.ne_nil_of_mem hmem), ?_⟩
    intro job hjob
    refine ⟨first, hmem, (Option.some.inj hjob).symm, ?_⟩
    intro other hother hne
    have hle : (JobStore.creationOrder first other).isLE = true :=
      SortKey.le_of_head JobStore.creationOrder hsorted other hother
    cases hcmp : JobStore.creationOrder first other with
    | lt => rfl
    | gt =>
      rw [hcmp] at hle
      cases hle
    | eq =>
      -- One name, one record.
      rw [JobStore.creationOrder, compareLex_eq_eq] at hcmp
      have hname : first.runId.text = other.runId.text := Std.LawfulEqOrd.eq_of_compare hcmp.2
      have hfirst := (getJob_of_mem_claimable hroot hmem).1
      have hother := (getJob_of_mem_claimable hroot hother).1
      rw [hname] at hfirst
      exact absurd (Option.some.inj (hother.symm.trans hfirst)) hne

/-- **The status machine of jobs.** Over every run, a job's statuses are the beginning of one of the
four lives and no run is claimed twice; `claim_next` claims the least queued job; and an update that is
refused changes nothing. -/
theorem job_status_machine {store : JobStore} {trace : List (QueueAction ι × DataRoot)}
    (h : Run (SeenStep host requests) (Queue.opened store) trace q) :
    (∀ runId, ∃ life ∈ lives, history trace runId <+: life) ∧ (claims trace).Nodup ∧
      ClaimsLeast q.root ∧
      ∀ runId args error root', exec (updateJob runId args) q.root = (.error error, root') →
        root' = q.root := by
  have hall : q.Consistent ∧ Remembers trace q ∧ ClaimedOnce trace q := by
    refine h.trace_invariant (I := fun trace q =>
      q.Consistent ∧ Remembers trace q ∧ ClaimedOnce trace q) ?_ ?_
    · rintro trace q seen q' ⟨hq, hpast, hclaimed⟩ hstep
      exact ⟨hstep.consistent hq, hstep.remembers hq hpast, hstep.claimedOnce hq hclaimed⟩
    · refine ⟨consistent_opened store, fun runId => Or.inl ⟨?_, rfl⟩, List.nodup_nil, ?_⟩
      · simp [DataRoot.statusOf, DataRoot.getJob, Queue.opened]
      · intro runId hrunId
        exact absurd hrunId List.not_mem_nil
  obtain ⟨hq, hpast, hclaimed⟩ := hall
  refine ⟨?_, hclaimed.1, claimsLeast hq.wellFormed, ?_⟩
  · intro runId
    rcases hpast runId with ⟨-, hnil⟩ | ⟨status, -, hlived⟩
    · rw [hnil]
      exact ⟨_, List.mem_cons_self, List.nil_prefix⟩
    · exact hlived.life
  · intro runId args error root' hrefused
    exact updateJob_refused hrefused

/-! ## Runs that are computed -/

/-- What the callers and the worker decide to do next. -/
inductive QueueMove (ι : Type*)
  | intake (i : ι) (action : IntakeAction)
  | claim
  | start
  | raise (exc : Raised)
  | fail

/-- The step of a move. It is the relation of steps as a function, so that a run can be given by its
moves and checked by evaluation. -/
def queueNext (host : Host) (requests : ι → CaptureIntakeRequest) (q : Queue ι) :
    QueueMove ι → Option (QueueAction ι × Queue ι)
  | .intake i action =>
    (advance host (requests i) q.root.store (q.intakes i) action).map fun moved =>
      (.intake i action moved.2,
        { q with
          root := { q.root with store := moved.1 }
          intakes := Function.update q.intakes i moved.2 })
  | .claim =>
    match q.worker, exec claimNext q.root with
    | .idle, (.ok (some job), root') =>
      some (.claim (some job), { q with root := root', worker := .claimed job.runId.text })
    | .idle, (.ok none, root') => some (.claim none, { q with root := root' })
    | _, _ => none
  | .start =>
    match q.worker with
    | .claimed runId =>
      if q.root.statusOf runId = some .running then
        some (.execute, { q with worker := .stages runId executeStages })
      else none
    | _ => none
  | .raise exc =>
    match q.worker with
    | .stages runId (_ :: _) => some (.execute, { q with worker := .failing runId exc })
    | _ => none
  | .fail =>
    match q.worker with
    | .failing runId exc =>
      match exec (updateJob runId (failUpdate exc).arguments) q.root with
      | (.ok _, root') => some (.execute, { q with root := root', worker := .idle })
      | _ => none
    | _ => none

theorem queueStep_of_next {move : QueueMove ι} (h : queueNext host requests q move = some (a, q')) :
    QueueStep host requests q a q' := by
  obtain ⟨root, worker, intakes⟩ := q
  cases move with
  | intake i action =>
    obtain ⟨moved, hmoved, heq⟩ := Option.map_eq_some_iff.mp h
    obtain ⟨rfl, rfl⟩ := Prod.mk.inj heq
    exact .intake hmoved
  | claim =>
    unfold queueNext at h
    dsimp only at h
    split at h
    · rename_i hclaim
      obtain ⟨rfl, rfl⟩ := Prod.mk.inj (Option.some.inj h)
      exact .claim rfl hclaim
    · rename_i hclaim
      obtain ⟨rfl, rfl⟩ := Prod.mk.inj (Option.some.inj h)
      exact .claimNone rfl hclaim
    · cases h
  | start =>
    unfold queueNext at h
    dsimp only at h
    split at h
    · split at h
      · rename_i hrunning
        obtain ⟨rfl, rfl⟩ := Prod.mk.inj (Option.some.inj h)
        obtain ⟨job, hjob, hstatus⟩ := Option.map_eq_some_iff.mp hrunning
        exact .execute (.start hjob hstatus)
      · cases h
    · cases h
  | raise exc =>
    unfold queueNext at h
    dsimp only at h
    split at h
    · obtain ⟨rfl, rfl⟩ := Prod.mk.inj (Option.some.inj h)
      exact .execute .raised
    · cases h
  | fail =>
    unfold queueNext at h
    dsimp only at h
    split at h
    · split at h
      · rename_i hupdate
        obtain ⟨rfl, rfl⟩ := Prod.mk.inj (Option.some.inj h)
        exact .execute (.failed hupdate)
      · cases h
    · cases h

/-- The run of some moves, each of them allowed where it is made. -/
def runMoves (host : Host) (requests : ι → CaptureIntakeRequest)
    (allowed : Queue ι → QueueAction ι → Bool) :
    List (QueueMove ι) → Queue ι → Option (List (QueueAction ι × DataRoot) × Queue ι)
  | [], q => some ([], q)
  | move :: rest, q =>
    match queueNext host requests q move with
    | none => none
    | some (a, q') =>
      if allowed q a then
        (runMoves host requests allowed rest q').map fun result =>
          ((a, q'.root) :: result.1, result.2)
      else none

theorem run_of_runMoves {allowed : Queue ι → QueueAction ι → Bool} {moves : List (QueueMove ι)} :
    ∀ {q : Queue ι} {trace : List (QueueAction ι × DataRoot)},
      runMoves host requests allowed moves q = some (trace, q') →
      Run (fun q seen q' => SeenStep host requests q seen q' ∧ allowed q seen.1 = true) q trace q' := by
  induction moves with
  | nil =>
    intro q trace h
    obtain ⟨rfl, rfl⟩ := Prod.mk.inj (Option.some.inj h)
    exact .nil _
  | cons move rest ih =>
    intro q trace h
    unfold runMoves at h
    split at h
    · cases h
    · rename_i a next hnext
      split at h
      · rename_i hallowed
        obtain ⟨result, hresult, heq⟩ := Option.map_eq_some_iff.mp h
        obtain ⟨rfl, rfl⟩ := Prod.mk.inj heq
        exact Run.cons ⟨⟨queueStep_of_next hnext, rfl⟩, hallowed⟩ (ih hresult)
      · cases h

end

/-- An upload that is claimed, and whose analysis fails. -/
def failedAnalysis : List (QueueMove Unit) :=
  [.intake () (.stage tokenA), .intake () .search, .intake () (.commit tokenA 1500000), .claim, .start,
    .raise ⟨"capture is not readable", "AnalysisError"⟩, .fail]

theorem failed_analysis_lived :
    ∃ (trace : List (QueueAction Unit × DataRoot)) (q : Queue Unit),
      Run (SeenStep uploadHost fun _ => pcapngUpload) (Queue.opened {}) trace q ∧
        history trace "r1111111111111111" = [.queued, .running, .failed] ∧
        claims trace = ["r1111111111111111"] ∧
        (∀ runId, ∃ life ∈ lives, history trace runId <+: life) ∧ (claims trace).Nodup ∧
        ClaimsLeast q.root := by
  have hrun : (runMoves uploadHost (fun _ => pcapngUpload) (fun _ _ => true) failedAnalysis
      (Queue.opened {})).map (fun result =>
        (history result.1 "r1111111111111111", claims result.1)) =
      some ([.queued, .running, .failed], ["r1111111111111111"]) := by decide +kernel
  obtain ⟨⟨trace, q⟩, hmoves, hseen⟩ := Option.map_eq_some_iff.mp hrun
  obtain ⟨hhistory, hclaims⟩ := Prod.mk.inj hseen
  have hsteps := (run_of_runMoves hmoves).mono fun _ _ _ hstep => hstep.1
  obtain ⟨hlives, hnodup, hleast, -⟩ := job_status_machine hsteps
  exact ⟨trace, q, hsteps, hhistory, hclaims, hlives, hnodup, hleast⟩

end Jobs
end SecureMail
