import SecureMail.Jobs.Script

/-!
# No cancellation is lost

A request to cancel leaves its mark twice, in the record and as `cancel.flag`. The mark in the
record can be lost: the worker writes back a copy it read before. The flag cannot, since no update
of either side removes it, and the worker looks at the flag at each of its checks. From there it is
a fact about the line of statements: whatever is left of the body while a check is still ahead, the
check comes before the publication.

The other direction is about what has happened: a COMPLETED record is only ever a copy of one the
worker wrote at the end of its line, after the three artifacts and the publication.

Both halves are stated for `UpdateStep`, the three accesses, since a lost mark is an interleaving of
accesses and does not exist where an update is one step. What is proved of the body is a property of
a list of statements that its tails inherit, checked once on the list by evaluation; if the body
gets a statement more, that check is what has to be looked at, and none of the inductions.
-/

namespace SecureMail
namespace Jobs

open Transition

variable {ι : Type*}

/-- The worker has a check ahead, or is in one and has not looked at the flag. -/
def Worker.checkAhead (w : Worker) : Bool := w.remaining.contains .check

/-- The call returned normally. A call that raised is an event of its own, and the run goes on to
its failure from there. -/
def Called (c : Call) (trace : List (Action ι)) : Prop := ⟨.worker, .call c⟩ ∈ trace

/-- The calls a completed run rests on. -/
def required : List Call := [.writeReportJson, .writeReportHtml, .writeReportPdf, .publishReport]

/-- The three artifacts were written and the report was published. They are what a reader of a
completed job expects to find. -/
def Complete (trace : List (Action ι)) : Prop := ∀ c ∈ required, Called c trace

theorem Called.append {c : Call} {trace trace' : List (Action ι)} (h : Called c trace) :
    Called c (trace ++ trace') := List.mem_append_left _ h

theorem Complete.append {trace trace' : List (Action ι)} (h : Complete trace) :
    Complete (trace ++ trace') := fun c hc => (h c hc).append

/-! ## A check comes before the publication -/

/-- No publication comes before the next check. -/
def guarded : List Instr → Bool
  | [] => true
  | .check :: _ => true
  | .update _ :: rest => guarded rest
  | .call c :: rest => c != .publishReport && guarded rest

theorem guarded_of_mem_scripts :
    ∀ rest ∈ scripts, rest.contains .check = true → guarded rest = true := by decide

/-- With the flag there, a worker that has a check before the publication keeps one. -/
theorem Advance.guarded {dir : JobDir} {rest rest' : List Instr} {e : Event}
    (h : Advance dir rest e rest') (hflag : dir.cancelFlag = true) (hrest : guarded rest = true) :
    guarded rest' = true ∧ ¬ Executes .publishReport e := by
  cases h with
  | stay he => exact ⟨hrest, he _⟩
  | check hclear =>
    rw [hflag] at hclear
    exact absurd hclear (by decide)
  | update => exact ⟨hrest, by simp [Executes]⟩
  | @call c =>
    rw [Jobs.guarded, Bool.and_eq_true, bne_iff_ne] at hrest
    exact ⟨hrest.2, by simpa [Executes] using hrest.1⟩
  | cancelled he => exact ⟨by decide, he _⟩
  | left hcall =>
    refine ⟨rfl, ?_⟩
    intro he
    obtain ⟨rest', rfl⟩ := hcall _ he
    exact absurd hrest (by simp [Jobs.guarded])

/-- After the publication no check comes. -/
def checksDone : List Instr → Bool
  | .call .publishReport :: rest => !rest.contains .check
  | _ => true

theorem checksDone_of_mem_scripts : ∀ rest ∈ scripts, checksDone rest = true := by decide

/-- A worker past its last check, or that executes the publication, has no check ahead. -/
theorem Advance.contains_check {dir : JobDir} {rest rest' : List Instr} {e : Event}
    (h : Advance dir rest e rest') (hrest : rest ∈ scripts)
    (hpast : rest.contains .check = false ∨ Executes .publishReport e) :
    rest'.contains .check = false := by
  cases h with
  | stay he =>
    rcases hpast with hpast | hpublish
    · exact hpast
    · exact absurd hpublish (he _)
  | check =>
    rcases hpast with hpast | hpublish
    · simp at hpast
    · simp [Executes] at hpublish
  | update =>
    rcases hpast with hpast | hpublish
    · simpa using hpast
    · simp [Executes] at hpublish
  | call =>
    rcases hpast with hpast | hpublish
    · simpa using hpast
    · obtain rfl : _ = Call.publishReport := by simpa [Executes] using hpublish
      simpa [checksDone] using checksDone_of_mem_scripts _ hrest
  | cancelled => decide
  | left => rfl

/-- What the worker's remaining statements say about its publications, past and to come. -/
structure Unpublished (trace : List (Action ι)) (s : System ι) : Prop where
  onScript : s.OnScript
  past : (∃ a ∈ trace, Executes .publishReport a.event) → s.worker.checkAhead = false

/-- The flag is there, and what is left of the body has its check before the publication. It is the
invariant of a run from the moment of the request: nothing removes the flag, and a worker that meets
the check with the flag there jumps to `_mark_cancelled`, of which nothing is published. -/
structure Stopping (s : System ι) : Prop where
  onScript : s.OnScript
  flag : s.dir.cancelFlag = true
  guarded : guarded s.worker.remaining = true

section

variable [DecidableEq ι] {s s' : System ι} {a : Action ι} {trace : List (Action ι)}

/-- Only the worker publishes, and its step is one of `Advance`. -/
theorem Step.advance {upd : UpdateRelation} (h : Step upd s a s') :
    Advance s.dir s.worker.remaining a.event s'.worker.remaining ∧ a.party = .worker ∨
      s'.worker = s.worker ∧ ∀ c, ¬ Executes c a.event := by
  cases h with
  | worker h => exact Or.inl ⟨h.advance, rfl⟩
  | cancel h => exact Or.inr ⟨rfl, h.not_executes⟩

theorem Step.unpublished {upd : UpdateRelation} (h : Step upd s a s') (hs : Unpublished trace s) :
    Unpublished (trace ++ [a]) s' := by
  refine ⟨h.onScript hs.onScript, ?_⟩
  rintro ⟨b, hb, hpublish⟩
  have hpast : s.worker.checkAhead = false ∨ Executes .publishReport a.event := by
    rcases List.mem_append.mp hb with hb | hb
    · exact Or.inl (hs.past ⟨b, hb, hpublish⟩)
    · exact Or.inr (List.mem_singleton.mp hb ▸ hpublish)
  rcases h.advance with ⟨hadvance, -⟩ | ⟨hworker, hnone⟩
  · exact hadvance.contains_check hs.onScript.worker.remaining_mem hpast
  · rw [hworker]
    exact hpast.resolve_right (hnone _)

theorem Step.stopping (h : Step UpdateStep s a s') (hs : Stopping s) :
    Stopping s' ∧ ¬ Executes .publishReport a.event := by
  have hflag := h.cancelFlag hs.onScript hs.flag
  rcases h.advance with ⟨hadvance, -⟩ | ⟨hworker, hnone⟩
  · obtain ⟨hguarded, hpublish⟩ := hadvance.guarded hs.flag hs.guarded
    exact ⟨⟨h.onScript hs.onScript, hflag, hguarded⟩, hpublish⟩
  · exact ⟨⟨h.onScript hs.onScript, hflag, hworker ▸ hs.guarded⟩, hnone _⟩

theorem Run.cancelFlag (h : Run (Step UpdateStep) s trace s') (hs : s.OnScript)
    (hflag : s.dir.cancelFlag = true) : s'.dir.cancelFlag = true := by
  have hboth : s'.OnScript ∧ s'.dir.cancelFlag = true := by
    refine h.invariant (I := fun s => s.OnScript ∧ s.dir.cancelFlag = true) ?_ ⟨hs, hflag⟩
    rintro s a t ⟨hs, hflag⟩ hstep
    exact ⟨hstep.onScript hs, hstep.cancelFlag hs hflag⟩
  exact hboth.2

end

/-! ## A completed run was published -/

/-- The call comes before any update to COMPLETED. -/
def callsBefore (c : Call) : List Instr → Bool
  | [] => true
  | .check :: rest => callsBefore c rest
  | .update u :: rest => u.status != some .completed && callsBefore c rest
  | .call c' :: rest => c' == c || callsBefore c rest

/-- Each required call was made or is made before the run is completed; and where a record says
COMPLETED they all were made. It speaks of every copy in flight as well as of the record, since a
copy is what the next write puts in its place. -/
structure Accounted (trace : List (Action ι)) (s : System ι) : Prop where
  onScript : s.OnScript
  worker : ∀ c ∈ required, Called c trace ∨ callsBefore c s.worker.remaining = true
  records : s.Everywhere fun job => job.status = .completed → Complete trace

theorem Advance.accounted {dir : JobDir} {rest rest' : List Instr} {e : Event} {c : Call}
    {trace : List (Action ι)} (h : Advance dir rest e rest')
    (hrest : Called c trace ∨ callsBefore c rest = true) :
    Called c (trace ++ [⟨.worker, e⟩]) ∨ callsBefore c rest' = true := by
  rcases hrest with hcalled | hbefore
  · exact Or.inl hcalled.append
  · cases h with
    | stay => exact Or.inr hbefore
    | check => exact Or.inr hbefore
    | update =>
      rw [callsBefore, Bool.and_eq_true] at hbefore
      exact Or.inr hbefore.2
    | @call c' =>
      rw [callsBefore, Bool.or_eq_true, beq_iff_eq] at hbefore
      rcases hbefore with rfl | hbefore
      · exact Or.inl (List.mem_append_right _ (List.mem_singleton_self _))
      · exact Or.inr hbefore
    | cancelled => exact Or.inr (by simp [callsBefore, cancelledUpdate])
    | left => exact Or.inr rfl

/-- Only the last statement of the body completes a run. -/
theorem System.OnScript.completes {s : System ι} (hs : s.OnScript) {party : Party ι}
    {u : JobUpdate} {p : UpdateProgress} (h : s.updateOf party = some (u, p))
    (hu : u.status = some .completed) : ∃ rest, s.worker.remaining = .update u :: rest := by
  cases party with
  | worker =>
    obtain ⟨caller, hw⟩ := System.updateOf_worker_iff.mp h
    have hscript := hs.worker
    rw [hw] at hscript ⊢
    cases caller with
    | claimNext =>
      rw [show u = _ from hscript] at hu
      exact absurd hu (by decide)
    | sweep =>
      rw [show u = _ from hscript] at hu
      exact absurd hu (by decide)
    | stages rest => exact ⟨rest, rfl⟩
    | fail =>
      obtain ⟨exc, rfl⟩ := hscript
      exact absurd hu (by simp [failUpdate])
  | cancel i =>
    have hscript := hs.cancels i
    rw [System.updateOf_cancel_iff.mp h] at hscript
    obtain ⟨current, -, rfl⟩ := hscript
    unfold cancelUpdate at hu
    split at hu <;> simp at hu

/-- An update in flight makes a completed record out of one only, or after everything was done. -/
theorem Accounted.patch {trace : List (Action ι)} {s : System ι} (hs : Accounted trace s)
    (party : Party ι) (u : JobUpdate) (p : UpdateProgress) (current : AnalysisJob)
    (h : s.updateOf party = some (u, p)) (hcurrent : current.status = .completed → Complete trace)
    (hpatch : (u.patch current).status = .completed) : Complete trace := by
  rw [JobUpdate.patch_status] at hpatch
  cases hu : u.status with
  | none =>
    rw [hu] at hpatch
    exact hcurrent hpatch
  | some status =>
    rw [hu] at hpatch
    obtain rfl : status = .completed := hpatch
    obtain ⟨rest, hremaining⟩ := hs.onScript.completes h hu
    intro c hc
    rcases hs.worker c hc with hcalled | hbefore
    · exact hcalled
    · rw [hremaining, callsBefore, hu] at hbefore
      exact absurd hbefore (by simp)

section

variable [DecidableEq ι] {s s' : System ι} {a : Action ι} {trace : List (Action ι)}

theorem Step.accounted_records (h : Step UpdateStep s a s') (hs : Accounted trace s) :
    s'.Everywhere fun job => job.status = .completed → Complete trace :=
  h.everywhere hs.records fun party u p current => hs.patch party u p current

theorem Step.accounted (h : Step UpdateStep s a s') (hs : Accounted trace s) :
    Accounted (trace ++ [a]) s' := by
  have hrecords := h.accounted_records hs
  refine ⟨h.onScript hs.onScript, ?_, ⟨?_, ?_⟩⟩
  · intro c hc
    rcases h.advance with ⟨hadvance, hparty⟩ | ⟨hworker, -⟩
    · have ha : a = ⟨.worker, a.event⟩ := by rw [← hparty]
      rw [ha]
      exact hadvance.accounted (hs.worker c hc)
    · rw [hworker]
      exact (hs.worker c hc).imp_left Called.append
  · intro hcompleted
    exact (hrecords.record hcompleted).append
  · intro party u p current hu hcopy hcompleted
    exact (hrecords.copies party u p current hu hcopy hcompleted).append

omit [DecidableEq ι] in
theorem accounted_enqueued : Accounted [] (enqueued : System ι) := by
  refine ⟨onScript_enqueued, ?_, ⟨?_, ?_⟩⟩
  · intro c hc
    right
    show callsBefore c executeStages = true
    revert c
    decide
  · intro hcompleted
    exact absurd hcompleted (by simp [enqueued])
  · intro party u p current hu
    cases party <;> simp [System.updateOf, enqueued] at hu

/-- **No cancellation is lost, and nothing is completed that was not published.** The run is any
interleaving of the accesses of the worker and of any number of requests. -/
theorem no_lost_cancellation {t₁ t₂ : List (Action ι)} {s₁ s₂ : System ι}
    (h₁ : Run (Step UpdateStep) enqueued t₁ s₁) (h₂ : Run (Step UpdateStep) s₁ t₂ s₂) :
    (s₁.dir.cancelFlag = true →
        s₂.dir.cancelFlag = true ∧ s₂.dir.isCancelRequested = true) ∧
      (s₁.dir.cancelFlag = true → s₁.worker.checkAhead = true →
        ∀ a ∈ t₁ ++ t₂, ¬ Executes .publishReport a.event) ∧
      ∀ pre party job post, t₁ ++ t₂ = pre ++ ⟨party, .update (.write job)⟩ :: post →
        job.status = .completed → Complete pre := by
  have hunpublished : Unpublished t₁ s₁ :=
    h₁.trace_invariant (I := Unpublished) (fun _ _ _ _ hI hstep => hstep.unpublished hI)
      ⟨onScript_enqueued, by simp⟩
  refine ⟨?_, ?_, ?_⟩
  · intro hflag
    have hflag' := Run.cancelFlag h₂ hunpublished.onScript hflag
    exact ⟨hflag', by simp [JobDir.isCancelRequested, hflag']⟩
  · intro hflag hahead a ha hpublish
    rcases List.mem_append.mp ha with ha | ha
    · have hpast := hunpublished.past ⟨a, ha, hpublish⟩
      rw [hahead] at hpast
      exact absurd hpast (by decide)
    · have hstopping : Stopping s₁ :=
        ⟨hunpublished.onScript, hflag,
          guarded_of_mem_scripts _ hunpublished.onScript.worker.remaining_mem hahead⟩
      exact h₂.forall_mem (fun _ _ _ hI hstep => hstep.stopping hI) hstopping a ha hpublish
  · intro pre party job post htrace hcompleted
    obtain ⟨v, w, hv, hvw, -⟩ := (h₁.append h₂).split htrace
    have haccounted : Accounted pre v :=
      hv.trace_invariant (I := Accounted) (fun _ _ _ _ hI hstep => hstep.accounted hI)
        accounted_enqueued
    have hrecord := (hvw.accounted_records haccounted).record
    rcases hvw.record_cases with ⟨-, hnot⟩ | ⟨u, current, -, hevent, hjob⟩
    · exact absurd rfl (hnot job)
    · obtain rfl : job = u.patch current := by simpa using hevent
      exact hrecord (hjob ▸ hcompleted)

end

/-- The record of a run the worker has just claimed. -/
def claimedJob : AnalysisJob := { status := .running, stage := .intake }

/-- The worker has claimed the run and stands before its first check; a request that read RUNNING
has raised the flag and not yet written the record. -/
def flagRaised : System Unit where
  dir := { job := claimedJob, cancelFlag := true }
  worker := .stages executeStages
  cancels := fun _ => .updating { cancelRequested := some true } (.flagged claimedJob)

def flagRaisedTrace : List (Action Unit) :=
  [⟨.worker, .listJobs⟩, ⟨.worker, .update .read⟩, ⟨.worker, .update .flag⟩,
   ⟨.worker, .update (.write claimedJob)⟩, ⟨.worker, .getJob⟩,
   ⟨.cancel (), .getJob⟩, ⟨.cancel (), .update .read⟩, ⟨.cancel (), .update .flag⟩]

theorem flagRaised_run : Run (Step UpdateStep) enqueued flagRaisedTrace flagRaised := by
  refine .cons (.worker (.select rfl)) (.cons (.worker (.update (UpdateStep.read rfl))) ?_)
  refine .cons (.worker (.update UpdateStep.flag)) (.cons (.worker (.update UpdateStep.write)) ?_)
  refine .cons (.worker (.start rfl)) ?_
  refine .cons (.cancel (.load rfl)) (.cons (.cancel (.update (UpdateStep.read rfl))) ?_)
  exact .single (.cancel (.update UpdateStep.flag))

/-- The request is seen at the next check, whatever it still does to the record. -/
theorem flagRaised_never_publishes :
    flagRaised.dir.isCancelRequested = true ∧
      ∀ a ∈ flagRaisedTrace ++ [], ¬ Executes .publishReport a.event :=
  have h := no_lost_cancellation flagRaised_run (.nil _)
  ⟨(h.1 rfl).2, h.2.1 rfl (by decide)⟩

end Jobs
end SecureMail
