import SecureMail.Jobs.Worker

/-!
# What the parties can be up to

The body of `execute_capture_job` is a straight line, and the only statement that is not on it is
the `_mark_cancelled` that a check jumps to. So at any time the rest of the body is one of finitely
many lists, and a fact about the worker's future is a fact about those. `OnScript` says so of a
system, for every way to carry out `update_job`.

A property of the body is then a function of a list of statements to `Bool`, and that it holds of
whatever is left is one evaluation over `scripts`. `Advance` is the counterpart for a step: how what
is left changes, in four ways, without the worker's state. Most of what is said about the worker
elsewhere is one such function and one case analysis of `Advance`.

The second half is about `update_job` in three accesses. Between its read and its write a call holds
a copy of the record, and an invariant of the record alone does not survive the write of a copy from
before. `Everywhere` is an invariant of the record and of all copies in flight.
-/

namespace SecureMail
namespace Jobs

open Transition

/-- What can be left of the body: an end of the line, or of the one statement that a check jumps to. -/
def scripts : List (List Instr) := executeStages.tails ++ [Instr.update cancelledUpdate].tails

theorem executeStages_mem_scripts : executeStages ∈ scripts := by decide

theorem markCancelled_mem_scripts : [Instr.update cancelledUpdate] ∈ scripts := by decide

theorem nil_mem_scripts : [] ∈ scripts := by decide

theorem mem_scripts_iff {rest : List Instr} :
    rest ∈ scripts ↔ rest <:+ executeStages ∨ rest <:+ [Instr.update cancelledUpdate] := by
  rw [scripts, List.mem_append, List.mem_tails, List.mem_tails]

theorem mem_scripts_of_cons {i : Instr} {rest : List Instr} (h : i :: rest ∈ scripts) :
    rest ∈ scripts := by
  rw [mem_scripts_iff] at h ⊢
  rcases h with h | h
  · exact Or.inl ((List.suffix_cons i rest).trans h)
  · exact Or.inr ((List.suffix_cons i rest).trans h)

/-- The update a caller makes, with what it goes on to do. -/
def Caller.OnScript (u : JobUpdate) : Caller → Prop
  | .claimNext => u = { status := some .running }
  | .sweep => u = cancelledUpdate
  | .stages rest => .update u :: rest ∈ scripts
  | .fail => ∃ exc, u = failUpdate exc

def Worker.OnScript : Worker → Prop
  | .stages rest => rest ∈ scripts
  | .checking rest => .check :: rest ∈ scripts
  | .updating caller u _ => caller.OnScript u
  | _ => True

def CancelCall.OnScript : CancelCall → Prop
  | .updating u _ => ∃ current : AnalysisJob, current.isTerminal = false ∧ u = cancelUpdate current
  | _ => True

structure System.OnScript {ι : Type*} (s : System ι) : Prop where
  worker : s.worker.OnScript
  cancels : ∀ i, (s.cancels i).OnScript

theorem Caller.next_onScript {caller : Caller} {u : JobUpdate} (h : caller.OnScript u)
    (p : UpdateProgress) : (caller.next u p).OnScript := by
  cases p with
  | done =>
    cases caller with
    | stages rest => exact mem_scripts_of_cons h
    | _ => trivial
  | refused error =>
    cases caller with
    | stages rest => exact ⟨_, rfl⟩
    | _ => trivial
  | _ => exact h

theorem CancelCall.next_onScript {u : JobUpdate} (h : (CancelCall.updating u .called).OnScript)
    (p : UpdateProgress) : (CancelCall.next u p).OnScript := by
  cases p with
  | done => trivial
  | refused error => trivial
  | _ => exact h

section

variable {upd : UpdateRelation} {dir dir' : JobDir} {e : Event}

theorem WorkerStep.onScript {w w' : Worker} (h : WorkerStep upd dir w e dir' w')
    (hw : w.OnScript) : w'.OnScript := by
  cases h with
  | otherRun => trivial
  | select => rfl
  | passOver => trivial
  | sweep => rfl
  | sweepOver => trivial
  | start => exact executeStages_mem_scripts
  | notRunning => trivial
  | recordCancelled => exact markCancelled_mem_scripts
  | recordClear => exact hw
  | flagThere => exact markCancelled_mem_scripts
  | flagAbsent => exact mem_scripts_of_cons hw
  | callUpdate => exact hw
  | call => exact mem_scripts_of_cons hw
  | callRaised => exact ⟨_, rfl⟩
  | raised => exact ⟨_, rfl⟩
  | stagesDone => trivial
  | update => exact Caller.next_onScript hw _

theorem CancelStep.onScript {c c' : CancelCall} (h : CancelStep upd dir c e dir' c')
    (hc : c.OnScript) : c'.OnScript := by
  cases h with
  | refused => trivial
  | load hlive => exact ⟨_, hlive, rfl⟩
  | update => exact CancelCall.next_onScript hc _

variable {ι : Type*} [DecidableEq ι] {s s' : System ι} {a : Action ι}

theorem Step.onScript (h : Step upd s a s') (hs : s.OnScript) : s'.OnScript := by
  cases h with
  | worker h => exact ⟨h.onScript hs.worker, hs.cancels⟩
  | @cancel i e dir' call' h =>
    refine ⟨hs.worker, ?_⟩
    intro j
    show (Function.update s.cancels i call' j).OnScript
    by_cases hj : j = i
    · subst hj
      rw [Function.update_self]
      exact h.onScript (hs.cancels j)
    · rw [Function.update_of_ne hj]
      exact hs.cancels j

theorem Run.onScript {trace : List (Action ι)} (h : Run (Step upd) s trace s')
    (hs : s.OnScript) : s'.OnScript :=
  h.invariant (I := System.OnScript) (fun _ _ _ hI hstep => hstep.onScript hI) hs

end

theorem onScript_enqueued {ι : Type*} : (enqueued : System ι).OnScript :=
  ⟨trivial, fun _ => trivial⟩

/-! ## The statements that are left -/

/-- What the worker has still to do of the body, the statement it is in included. -/
def Worker.remaining : Worker → List Instr
  | .polling | .sweeping | .claimed => executeStages
  | .stages rest => rest
  | .checking rest => .check :: rest
  | .updating .claimNext _ _ | .updating .sweep _ _ => executeStages
  | .updating (.stages rest) u _ => .update u :: rest
  | .updating .fail _ _ | .returned | .escaped _ => []

/-- The event executes the call, whether it returns or raises. -/
def Executes (c : Call) (e : Event) : Prop := e = .call c ∨ ∃ exc, e = .callRaised c exc

/-- How a step changes what is left: not at all, by the statement it is in, by the jump to
`_mark_cancelled`, or to nothing. -/
inductive Advance (dir : JobDir) : List Instr → Event → List Instr → Prop
  | stay {rest : List Instr} {e : Event} : (∀ c, ¬ Executes c e) → Advance dir rest e rest
  | check {rest : List Instr} : dir.cancelFlag = false →
      Advance dir (.check :: rest) .readFlag rest
  | update {u : JobUpdate} {rest : List Instr} {e : UpdateEvent} :
      Advance dir (.update u :: rest) (.update e) rest
  | call {c : Call} {rest : List Instr} : Advance dir (.call c :: rest) (.call c) rest
  | cancelled {rest : List Instr} {e : Event} : (∀ c, ¬ Executes c e) →
      Advance dir rest e [.update cancelledUpdate]
  | left {rest : List Instr} {e : Event} :
      (∀ c, Executes c e → ∃ rest', rest = .call c :: rest') → Advance dir rest e []

theorem Worker.OnScript.remaining_mem {w : Worker} (h : w.OnScript) : w.remaining ∈ scripts := by
  cases w with
  | polling => exact executeStages_mem_scripts
  | sweeping => exact executeStages_mem_scripts
  | claimed => exact executeStages_mem_scripts
  | stages rest => exact h
  | checking rest => exact h
  | updating caller u p =>
    cases caller with
    | claimNext => exact executeStages_mem_scripts
    | sweep => exact executeStages_mem_scripts
    | stages rest => exact h
    | fail => exact nil_mem_scripts
  | returned => exact nil_mem_scripts
  | escaped error => exact nil_mem_scripts

theorem WorkerStep.advance {upd : UpdateRelation} {dir dir' : JobDir} {w w' : Worker} {e : Event}
    (h : WorkerStep upd dir w e dir' w') : Advance dir w.remaining e w'.remaining := by
  cases h with
  | otherRun hw =>
    rcases hw with rfl | rfl
    · exact .stay (by simp [Executes])
    · exact .stay (by simp [Executes])
  | select => exact .stay (by simp [Executes])
  | passOver => exact .stay (by simp [Executes])
  | sweep => exact .stay (by simp [Executes])
  | sweepOver => exact .stay (by simp [Executes])
  | start => exact .stay (by simp [Executes])
  | notRunning => exact .left (by simp [Executes])
  | recordCancelled => exact .cancelled (by simp [Executes])
  | recordClear => exact .stay (by simp [Executes])
  | flagThere => exact .cancelled (by simp [Executes])
  | flagAbsent hflag => exact .check hflag
  | callUpdate => exact .stay (by simp [Executes])
  | call => exact .call
  | @callRaised c exc rest =>
    refine .left ?_
    intro c' hc'
    obtain rfl : c = c' := by simpa [Executes] using hc'
    exact ⟨rest, rfl⟩
  | raised => exact .left (by simp [Executes])
  | stagesDone => exact .stay (by simp [Executes])
  | @update _ caller u p p' e hupd =>
    cases p' with
    | done =>
      cases caller with
      | stages rest => exact .update
      | fail => exact .stay (by simp [Executes])
      | _ => exact .stay (by simp [Executes])
    | refused error =>
      cases caller with
      | claimNext => exact .stay (by simp [Executes])
      | _ => exact .left (by simp [Executes])
    | _ => cases caller <;> exact .stay (by simp [Executes])

theorem CancelStep.not_executes {upd : UpdateRelation} {dir dir' : JobDir} {c c' : CancelCall}
    {e : Event} (h : CancelStep upd dir c e dir' c') (call : Call) : ¬ Executes call e := by
  cases h <;> simp [Executes]

/-! ## The updates that are made -/

/-- No statement of the body touches the flag, and the one that sets a status is the last and ends
the run. -/
def settles : List Instr → Bool
  | [] => true
  | .update u :: rest =>
    u.cancelRequested.isNone && (if rest.isEmpty then u.endsRun else u.status.isNone) && settles rest
  | _ :: rest => !rest.isEmpty && settles rest

theorem settles_of_mem_scripts : ∀ rest ∈ scripts, settles rest = true := by decide

theorem Caller.OnScript.cancelRequested {caller : Caller} {u : JobUpdate}
    (h : caller.OnScript u) : u.cancelRequested = none := by
  cases caller with
  | claimNext => rw [show u = _ from h]
  | sweep => rw [show u = _ from h]; rfl
  | stages rest =>
    have hsettles := settles_of_mem_scripts _ h
    rw [settles, Bool.and_eq_true, Bool.and_eq_true] at hsettles
    simpa using hsettles.1.1
  | fail =>
    obtain ⟨exc, rfl⟩ := h
    rfl

/-- No update puts a run back into the queue. -/
theorem Caller.OnScript.status_ne_queued {caller : Caller} {u : JobUpdate}
    (h : caller.OnScript u) : u.status ≠ some .queued := by
  cases caller with
  | claimNext => rw [show u = _ from h]; decide
  | sweep => rw [show u = _ from h]; decide
  | stages rest =>
    have hsettles := settles_of_mem_scripts _ h
    rw [settles, Bool.and_eq_true, Bool.and_eq_true] at hsettles
    intro hqueued
    have hstatus := hsettles.1.2
    rw [JobUpdate.endsRun, hqueued] at hstatus
    cases rest <;> simp [AnalysisStatus.isTerminal] at hstatus
  | fail =>
    obtain ⟨exc, rfl⟩ := h
    simp [failUpdate]

theorem cancelUpdate_status (current : AnalysisJob) :
    (cancelUpdate current).status = none ∧ current.status ≠ .queued ∨
      (cancelUpdate current).status = some .cancelled ∧ current.status = .queued := by
  unfold cancelUpdate
  by_cases hqueued : current.status = .queued
  · exact Or.inr ⟨by simp [hqueued], hqueued⟩
  · exact Or.inl ⟨by simp [hqueued], hqueued⟩

theorem cancelUpdate_cancelRequested (current : AnalysisJob) :
    (cancelUpdate current).cancelRequested = some true := by
  unfold cancelUpdate
  split <;> rfl

theorem System.OnScript.keepsFlag {ι : Type*} {s : System ι} (hs : s.OnScript) {party : Party ι}
    {u : JobUpdate} {p : UpdateProgress} (h : s.updateOf party = some (u, p)) :
    u.cancelRequested = none ∨ u.cancelRequested = some true := by
  cases party with
  | worker =>
    cases hw : s.worker with
    | updating caller u' p' =>
      obtain ⟨rfl, rfl⟩ : u' = u ∧ p' = p := by simpa [updateOf, hw] using h
      have hscript := hs.worker
      rw [hw] at hscript
      exact Or.inl (Caller.OnScript.cancelRequested hscript)
    | _ => simp [updateOf, hw] at h
  | cancel i =>
    cases hc : s.cancels i with
    | updating u' p' =>
      obtain ⟨rfl, rfl⟩ : u' = u ∧ p' = p := by simpa [updateOf, hc] using h
      have hscript := hs.cancels i
      rw [hc] at hscript
      obtain ⟨current, -, rfl⟩ := hscript
      exact Or.inr (cancelUpdate_cancelRequested current)
    | _ => simp [updateOf, hc] at h

/-! ## The accesses of `update_job` -/

section

variable {upd : UpdateRelation} {dir dir' : JobDir} {e : Event}

/-- A step of the worker is no access of `update_job`, or it is one of the call it is in. -/
theorem WorkerStep.update_cases {w w' : Worker} (h : WorkerStep upd dir w e dir' w') :
    (dir' = dir ∧ (∀ ev, e ≠ .update ev) ∧
        ∀ caller u p, w' = .updating caller u p → p = .called) ∨
      ∃ caller u p ev p', w = .updating caller u p ∧ e = .update ev ∧ upd u dir p ev dir' p' ∧
        w' = caller.next u p' := by
  cases h with
  | update hupd => exact Or.inr ⟨_, _, _, _, _, rfl, rfl, hupd, rfl⟩
  | _ => exact Or.inl ⟨rfl, by simp, by simp⟩

theorem CancelStep.update_cases {c c' : CancelCall} (h : CancelStep upd dir c e dir' c') :
    (dir' = dir ∧ (∀ ev, e ≠ .update ev) ∧ ∀ u p, c' = .updating u p → p = .called) ∨
      ∃ u p ev p', c = .updating u p ∧ e = .update ev ∧ upd u dir p ev dir' p' ∧
        c' = CancelCall.next u p' := by
  cases h with
  | update hupd => exact Or.inr ⟨_, _, _, _, rfl, rfl, hupd, rfl⟩
  | _ => exact Or.inl ⟨rfl, by simp, by simp⟩

theorem Caller.next_eq_updating {caller caller' : Caller} {u u' : JobUpdate}
    {p p' : UpdateProgress} (h : caller.next u p = .updating caller' u' p') :
    p' = .called ∨ u' = u ∧ p' = p := by
  cases p with
  | done => cases caller <;> simp [Caller.next] at h
  | refused error =>
    cases caller with
    | stages rest =>
      obtain ⟨-, -, rfl⟩ : _ ∧ _ ∧ UpdateProgress.called = p' := by simpa [Caller.next] using h
      exact Or.inl rfl
    | _ => simp [Caller.next] at h
  | _ =>
    obtain ⟨-, rfl, rfl⟩ : _ ∧ u = u' ∧ _ = p' := by simpa [Caller.next] using h
    exact Or.inr ⟨rfl, rfl⟩

theorem CancelCall.next_eq_updating {u u' : JobUpdate} {p p' : UpdateProgress}
    (h : CancelCall.next u p = .updating u' p') : u' = u ∧ p' = p := by
  cases p with
  | done => simp [CancelCall.next] at h
  | refused error => simp [CancelCall.next] at h
  | _ =>
    obtain ⟨rfl, rfl⟩ : u = u' ∧ _ = p' := by simpa [CancelCall.next] using h
    exact ⟨rfl, rfl⟩

theorem System.updateOf_worker_iff {ι : Type*} {s : System ι} {u : JobUpdate} {p : UpdateProgress} :
    s.updateOf .worker = some (u, p) ↔ ∃ caller, s.worker = .updating caller u p := by
  cases hw : s.worker <;> simp [updateOf, hw]

theorem System.updateOf_cancel_iff {ι : Type*} {s : System ι} {i : ι} {u : JobUpdate} {p : UpdateProgress} :
    s.updateOf (.cancel i) = some (u, p) ↔ s.cancels i = .updating u p := by
  cases hc : s.cancels i <;> simp [updateOf, hc]

variable {ι : Type*} [DecidableEq ι] {s s' : System ι} {a : Action ι}

/-- A step of the system leaves the directory alone, and then no call of `update_job` comes
further, or it is an access of the call its party is in, and then no other call comes further. -/
theorem Step.update_cases (h : Step upd s a s') :
    (s'.dir = s.dir ∧ (∀ ev, a.event ≠ .update ev) ∧
        ∀ party u p, s'.updateOf party = some (u, p) →
          s.updateOf party = some (u, p) ∨ p = .called) ∨
      ∃ u p ev p', s.updateOf a.party = some (u, p) ∧ a.event = .update ev ∧
        upd u s.dir p ev s'.dir p' ∧
        ∀ party u₁ p₁, s'.updateOf party = some (u₁, p₁) →
          s.updateOf party = some (u₁, p₁) ∨ p₁ = .called ∨ u₁ = u ∧ p₁ = p' := by
  cases h with
  | @worker e dir' worker' h =>
    rcases h.update_cases with ⟨hdir, hev, hcalled⟩ | ⟨caller, u, p, ev, p', hw, rfl, hupd, rfl⟩
    · refine Or.inl ⟨hdir, hev, ?_⟩
      intro party u p hparty
      cases party with
      | worker =>
        obtain ⟨caller, hw'⟩ := System.updateOf_worker_iff.mp hparty
        exact Or.inr (hcalled caller u p hw')
      | cancel i => exact Or.inl hparty
    · refine Or.inr ⟨u, p, ev, p', System.updateOf_worker_iff.mpr ⟨caller, hw⟩, rfl, hupd, ?_⟩
      intro party u₁ p₁ hparty
      cases party with
      | worker =>
        obtain ⟨caller', hw'⟩ := System.updateOf_worker_iff.mp hparty
        exact Or.inr (Caller.next_eq_updating hw')
      | cancel i => exact Or.inl hparty
  | @cancel i e dir' call' h =>
    have hothers : ∀ party, party ≠ .cancel i →
        System.updateOf { s with dir := dir', cancels := Function.update s.cancels i call' } party =
          s.updateOf party := by
      intro party hne
      cases party with
      | worker => rfl
      | cancel j =>
        have hji : j ≠ i := fun hj => hne (hj ▸ rfl)
        simp only [System.updateOf, Function.update_of_ne hji]
    have hself : ∀ u p,
        System.updateOf { s with dir := dir', cancels := Function.update s.cancels i call' }
          (.cancel i) = some (u, p) → call' = .updating u p := by
      intro u p hparty
      simpa using System.updateOf_cancel_iff.mp hparty
    rcases h.update_cases with ⟨hdir, hev, hcalled⟩ | ⟨u, p, ev, p', hc, rfl, hupd, rfl⟩
    · refine Or.inl ⟨hdir, hev, ?_⟩
      intro party u p hparty
      by_cases hi : party = .cancel i
      · subst hi
        exact Or.inr (hcalled u p (hself u p hparty))
      · rw [hothers party hi] at hparty
        exact Or.inl hparty
    · refine Or.inr ⟨u, p, ev, p', System.updateOf_cancel_iff.mpr hc, rfl, hupd, ?_⟩
      intro party u₁ p₁ hparty
      by_cases hi : party = .cancel i
      · subst hi
        exact Or.inr (Or.inr (CancelCall.next_eq_updating (hself u₁ p₁ hparty)))
      · rw [hothers party hi] at hparty
        exact Or.inl hparty

end

/-! ## Copies in flight -/

/-- The copy of the record that a call of `update_job` will write back. -/
def UpdateProgress.copy : UpdateProgress → Option AnalysisJob
  | .loaded current | .flagged current => some current
  | _ => none

/-- `P` holds of the record, and of every copy of it that is still to be written back. -/
structure System.Everywhere {ι : Type*} (P : AnalysisJob → Prop) (s : System ι) : Prop where
  record : P s.dir.job
  copies : ∀ party u p current, s.updateOf party = some (u, p) → p.copy = some current → P current

/-- Every copy was let through by the guard. A copy that the guard refused raises before it is
written, so it is not in flight. -/
def System.Admitted {ι : Type*} (s : System ι) : Prop :=
  ∀ party u p current, s.updateOf party = some (u, p) → p.copy = some current →
    u.refuses current = false

section

variable {u : JobUpdate} {dir dir' : JobDir} {p p' : UpdateProgress} {ev : UpdateEvent}

theorem UpdateStep.everywhere {P : AnalysisJob → Prop} (h : UpdateStep u dir p ev dir' p')
    (hjob : P dir.job) (hcopy : ∀ current, p.copy = some current → P current)
    (hpatch : ∀ current, P current → P (u.patch current)) :
    P dir'.job ∧ ∀ current, p'.copy = some current → P current := by
  cases h with
  | read => exact ⟨hjob, by simpa [UpdateProgress.copy] using hjob⟩
  | conflict => exact ⟨hjob, by simp [UpdateProgress.copy]⟩
  | flag => exact ⟨hjob, hcopy⟩
  | write => exact ⟨hpatch _ (hcopy _ rfl), by simp [UpdateProgress.copy]⟩

theorem UpdateStep.admitted (h : UpdateStep u dir p ev dir' p')
    (hcopy : ∀ current, p.copy = some current → u.refuses current = false) :
    ∀ current, p'.copy = some current → u.refuses current = false := by
  cases h with
  | read hguard =>
    intro current hcurrent
    obtain rfl : _ = current := by simpa [UpdateProgress.copy] using hcurrent
    exact hguard
  | flag => exact hcopy
  | _ => simp [UpdateProgress.copy]

theorem UpdateStep.record_cases (h : UpdateStep u dir p ev dir' p') :
    (dir'.job = dir.job ∧ ∀ job, ev ≠ .write job) ∨
      ∃ current, p = .flagged current ∧ ev = .write (u.patch current) ∧
        dir'.job = u.patch current := by
  cases h with
  | write => exact Or.inr ⟨_, rfl, rfl, rfl⟩
  | _ => exact Or.inl ⟨rfl, by simp⟩

/-- An update that does not take the flag away leaves it when it is there. -/
theorem UpdateStep.cancelFlag (h : UpdateStep u dir p ev dir' p')
    (hu : u.cancelRequested = none ∨ u.cancelRequested = some true)
    (hflag : dir.cancelFlag = true) : dir'.cancelFlag = true := by
  cases h with
  | flag => rcases hu with hu | hu <;> simp [JobUpdate.flag, hu, hflag]
  | _ => exact hflag

end

section

variable {ι : Type*} [DecidableEq ι] {s s' : System ι} {a : Action ι}

/-- What holds of the record and the copies holds of what is made of them, if every update in
flight keeps it. -/
theorem Step.everywhere {P : AnalysisJob → Prop} (h : Step UpdateStep s a s')
    (hs : s.Everywhere P)
    (hpatch : ∀ party u p current, s.updateOf party = some (u, p) → P current →
      P (u.patch current)) : s'.Everywhere P := by
  rcases h.update_cases with ⟨hdir, -, hsame⟩ | ⟨u, p, ev, p', hparty, -, hupd, hsame⟩
  · refine ⟨hdir ▸ hs.record, ?_⟩
    intro party u p current hu hcopy
    rcases hsame party u p hu with hold | rfl
    · exact hs.copies party u p current hold hcopy
    · simp [UpdateProgress.copy] at hcopy
  · have hcurrent := hupd.everywhere hs.record (fun current => hs.copies _ u p current hparty)
      (fun current => hpatch _ u p current hparty)
    refine ⟨hcurrent.1, ?_⟩
    intro party u₁ p₁ current hu hcopy
    rcases hsame party u₁ p₁ hu with hold | rfl | ⟨rfl, rfl⟩
    · exact hs.copies party u₁ p₁ current hold hcopy
    · simp [UpdateProgress.copy] at hcopy
    · exact hcurrent.2 current hcopy

theorem Step.admitted (h : Step UpdateStep s a s') (hs : s.Admitted) : s'.Admitted := by
  rcases h.update_cases with ⟨-, -, hsame⟩ | ⟨u, p, ev, p', hparty, -, hupd, hsame⟩
  · intro party u p current hu hcopy
    rcases hsame party u p hu with hold | rfl
    · exact hs party u p current hold hcopy
    · simp [UpdateProgress.copy] at hcopy
  · have hcurrent := hupd.admitted (fun current => hs _ u p current hparty)
    intro party u₁ p₁ current hu hcopy
    rcases hsame party u₁ p₁ hu with hold | rfl | ⟨rfl, rfl⟩
    · exact hs party u₁ p₁ current hold hcopy
    · simp [UpdateProgress.copy] at hcopy
    · exact hcurrent current hcopy

omit [DecidableEq ι] in
theorem admitted_enqueued : (enqueued : System ι).Admitted := by
  intro party u p current hu
  cases party <;> simp [System.updateOf, enqueued] at hu

/-- What a step does to the record: nothing, or it writes back the copy of its party. -/
theorem Step.record_cases (h : Step UpdateStep s a s') :
    (s'.dir.job = s.dir.job ∧ ∀ job, a.event ≠ .update (.write job)) ∨
      ∃ u current, s.updateOf a.party = some (u, .flagged current) ∧
        a.event = .update (.write (u.patch current)) ∧ s'.dir.job = u.patch current := by
  rcases h.update_cases with ⟨hdir, hev, -⟩ | ⟨u, p, ev, p', hparty, hev, hupd, -⟩
  · exact Or.inl ⟨by rw [hdir], fun job => hev _⟩
  · rcases hupd.record_cases with ⟨hjob, hwrite⟩ | ⟨current, rfl, rfl, hjob⟩
    · exact Or.inl ⟨hjob, by simpa [hev] using hwrite⟩
    · exact Or.inr ⟨u, current, hparty, hev, hjob⟩

/-- `cancel.flag` stays once it is there. -/
theorem Step.cancelFlag (h : Step UpdateStep s a s') (hs : s.OnScript)
    (hflag : s.dir.cancelFlag = true) : s'.dir.cancelFlag = true := by
  rcases h.update_cases with ⟨hdir, -, -⟩ | ⟨u, p, ev, p', hparty, -, hupd, -⟩
  · rw [hdir]
    exact hflag
  · exact hupd.cancelFlag (hs.keepsFlag hparty) hflag

end

end Jobs
end SecureMail
