import SecureMail.Jobs.Cancellation
import SecureMail.Ml.HistoryStore
import SecureMail.Reports.LastWrite

/-!
# What an execution leaves behind

Two stores outlive a run: the window history and the report catalog. `execute_capture_job` writes
the first in the middle of its line, when the advisories are attached, and the second at the end.
Nothing takes either back, so an execution that fails or is cancelled after the append has changed
the history; it has changed nothing else, and one that ends before the append has changed nothing.

The statement is therefore about calls and not about outcomes. What the stores are is a function of
which of two calls were made, and the outcome is tied to it at one point only: an execution that
returns a cancelled job has not called the publisher, because no check comes after it. A publication
that raises half way is given its own relation (`PublishRaises`), since the publisher writes the
report before the catalog and an exception in between leaves the one without the other.
-/

namespace SecureMail
namespace Jobs

open Transition
open Ml (EndpointWindow FloatOps AppendStep FilesystemMlHistoryStore)
open Reports (Limits ReportRoot Bytes publishReport withReport)

/-- What an interrupted publication can leave: nothing yet, the directory, or the report in its place
with the catalog as it was. -/
inductive PublishRaises (limits : Limits) (root : ReportRoot) (caseId : String) : ReportRoot → Prop
  | unchanged : PublishRaises limits root caseId root
  | created : PublishRaises limits root caseId (some (root.getD {}))
  | written {bytes : Bytes} : isIdentifier caseId = true → bytes.length ≤ limits.maxReportBytes →
      PublishRaises limits root caseId (some (withReport root caseId bytes))

/-- A `ReportRepositoryError` of the publisher is one of these. -/
theorem publishRaises_of_error {limits : Limits} {root root' : ReportRoot} {caseId : String}
    {bytes : Bytes} {e : Reports.ReportRepositoryError}
    (h : publishReport limits root caseId bytes = (.error e, root')) :
    PublishRaises limits root caseId root' := by
  unfold publishReport at h
  by_cases hid : isIdentifier caseId = true
  · by_cases hbytes : limits.maxReportBytes < bytes.length
    · simp only [hid, hbytes, not_true_eq_false, if_false, if_true] at h
      obtain ⟨-, rfl⟩ := Prod.mk.inj h
      exact .unchanged
    · have hwritten : some (withReport root caseId bytes) = root' := by
        simp only [hid, hbytes, not_true_eq_false, if_false] at h
        split at h
        · exact (Prod.mk.inj h).2
        · split at h
          · exact (Prod.mk.inj h).2
          · cases h
      exact hwritten ▸ .written hid (not_lt.mp hbytes)
  · rw [if_pos hid] at h
    obtain ⟨-, rfl⟩ := Prod.mk.inj h
    exact .unchanged

/-- The two stores. -/
structure Shared (F : Type) where
  history : List (EndpointWindow F)
  catalog : ReportRoot

/-- How the stores and the job are set up. -/
structure Setup where
  historyStore : FilesystemMlHistoryStore := {}
  limits : Limits := {}
  sha256 : String → Digest
  caseId : String

section

variable {F : Type} [FloatOps F]

/-- What an event does to the stores. The windows that are appended come from the history that was
loaded, which is still the stored one: no other execution runs in between. -/
inductive SharedStep (setup : Setup) : Shared F → Event → Shared F → Prop
  | append {shared : Shared F} {windows history' : List (EndpointWindow F)} :
      AppendStep setup.historyStore setup.sha256 shared.history windows history' →
      SharedStep setup shared (.call .appendWindows) { shared with history := history' }
  | publish {shared : Shared F} {bytes : Bytes} {root' : ReportRoot} :
      publishReport setup.limits shared.catalog setup.caseId bytes = (.ok (), root') →
      SharedStep setup shared (.call .publishReport) { shared with catalog := root' }
  | publishRaised {shared : Shared F} {exc : Raised} {root' : ReportRoot} :
      PublishRaises setup.limits shared.catalog setup.caseId root' →
      SharedStep setup shared (.callRaised .publishReport exc) { shared with catalog := root' }
  -- The execution of another run, before this one is claimed.
  | otherRun {shared shared' : Shared F} : SharedStep setup shared .otherRun shared'
  -- `append_windows` replaces the file last of all, so it raises with the file as it was.
  | other {shared : Shared F} {e : Event} : e ≠ .call .appendWindows → ¬ Executes .publishReport e →
      e ≠ .otherRun → SharedStep setup shared e shared

/-- The parties of one run, and the stores. -/
structure JobState (ι : Type*) (F : Type) where
  system : System ι
  shared : Shared F

variable {ι : Type*} [DecidableEq ι]

def JobStep (setup : Setup) (s : JobState ι F) (a : Action ι) (t : JobState ι F) : Prop :=
  Step UpdateStep s.system a t.system ∧ SharedStep setup s.shared a.event t.shared

end

/-! ## One call is made once -/

/-- Behind the call there is no second one. -/
def once : List Instr → Bool
  | .call c :: rest => !rest.contains (.call c)
  | _ => true

theorem once_of_mem_scripts : ∀ rest ∈ scripts, once rest = true := by decide

section

variable {dir : JobDir} {rest rest' : List Instr} {e : Event} {c : Call}

theorem Advance.executes (h : Advance dir rest e rest') (he : Executes c e) :
    ∃ others, rest = .call c :: others := by
  cases h with
  | stay hnone => exact absurd he (hnone c)
  | check => simp [Executes] at he
  | update => simp [Executes] at he
  | @call c' =>
    obtain rfl : c' = c := by simpa [Executes] using he
    exact ⟨_, rfl⟩
  | cancelled hnone => exact absurd he (hnone c)
  | left hcall => exact hcall c he

theorem Advance.spent (h : Advance dir rest e rest') (hrest : rest ∈ scripts)
    (hspent : Instr.call c ∉ rest ∨ Executes c e) : Instr.call c ∉ rest' := by
  have htail : ∀ i others, rest = i :: others → Instr.call c ∉ others := by
    rintro i others rfl
    rcases hspent with hnot | he
    · exact fun hmem => hnot (List.mem_cons_of_mem i hmem)
    · obtain ⟨_, heq⟩ := h.executes he
      obtain ⟨rfl, rfl⟩ := List.cons.inj heq
      simpa [once] using once_of_mem_scripts _ hrest
  cases h with
  | stay hnone => exact hspent.resolve_right (hnone c)
  | check => exact htail _ _ rfl
  | update => exact htail _ _ rfl
  | call => exact htail _ _ rfl
  | cancelled => simp
  | left => exact List.not_mem_nil

/-- The history is appended to before the report is published. -/
def appendFirst : List Instr → Bool
  | [] => true
  | .call c :: rest => c == .appendWindows || c != .publishReport && appendFirst rest
  | _ :: rest => appendFirst rest

theorem appendFirst_executeStages : appendFirst executeStages = true := by decide

theorem Advance.appendFirst (h : Advance dir rest e rest') (hrest : appendFirst rest = true) :
    appendFirst rest' = true ∨ e = .call .appendWindows := by
  cases h with
  | stay => exact Or.inl hrest
  | check => exact Or.inl hrest
  | update => exact Or.inl hrest
  | @call c =>
    rw [Jobs.appendFirst, Bool.or_eq_true, Bool.and_eq_true, beq_iff_eq] at hrest
    rcases hrest with rfl | ⟨-, hrest⟩
    · exact Or.inr rfl
    · exact Or.inl hrest
  | cancelled => exact Or.inl rfl
  | left => exact Or.inl rfl

end

/-! ## After the publication -/

variable {ι : Type*}

/-- The record that a step of the worker writes. -/
def written? : Action ι → Option AnalysisJob
  | ⟨.worker, .update (.write job)⟩ => some job
  | _ => none

/-- The record that the worker wrote last. -/
def lastWritten (trace : List (Action ι)) : Option AnalysisJob := (trace.filterMap written?).getLast?

theorem lastWritten_snoc {trace : List (Action ι)} {a : Action ι} :
    lastWritten (trace ++ [a]) = (written? a).or (lastWritten trace) := by
  unfold lastWritten
  rw [List.filterMap_append]
  cases h : written? a with
  | none => simp [h]
  | some job => simp [h]

/-- Where the worker can be once it has called the publisher, with the record it wrote last: it is
completing the run or failing it, or it is done and has. -/
inductive PastPublish (last : Option AnalysisJob) : Worker → Prop
  | published : PastPublish last (.stages [.update completedUpdate])
  | completing {p : UpdateProgress} : PastPublish last (.updating (.stages []) completedUpdate p)
  | failing {exc : Raised} {p : UpdateProgress} : PastPublish last (.updating .fail (failUpdate exc) p)
  | completed : (∀ job ∈ last, job.status = .completed) → PastPublish last (.stages [])
  | returned : (∀ job ∈ last, job.status = .completed ∨ job.status = .failed) →
      PastPublish last .returned
  | escaped {error : JobConflictError} : PastPublish last (.escaped error)

/-- After the publication only the last statement is left. -/
def publishesLast : List Instr → Bool
  | .call .publishReport :: rest => rest == [.update completedUpdate]
  | _ => true

theorem publishesLast_of_mem_scripts : ∀ rest ∈ scripts, publishesLast rest = true := by decide

section

variable {dir dir' : JobDir} {w w' : Worker} {e : Event} {trace : List (Action ι)}

theorem WorkerStep.pastPublish_of_executes (h : WorkerStep UpdateStep dir w e dir' w')
    (hw : w.OnScript) (he : Executes .publishReport e) (last : Option AnalysisJob) :
    PastPublish last w' := by
  cases h with
  | @call c rest =>
    obtain rfl : c = .publishReport := by simpa [Executes] using he
    have hlast := publishesLast_of_mem_scripts _ hw
    rw [publishesLast, beq_iff_eq] at hlast
    exact hlast ▸ .published
  | callRaised => exact .failing
  | _ => simp [Executes] at he

theorem WorkerStep.pastPublish (h : WorkerStep UpdateStep dir w e dir' w')
    (hw : PastPublish (lastWritten trace) w) :
    PastPublish (lastWritten (trace ++ [⟨.worker, e⟩])) w' := by
  rw [lastWritten_snoc]
  cases hw with
  | published =>
    cases h with
    | otherRun hw => simp at hw
    | callUpdate => exact .completing
    | raised => exact .failing
  | completing =>
    cases h with
    | otherRun hw => simp at hw
    | raised => exact .failing
    | update hupd =>
      cases hupd with
      | read => exact .completing
      | conflict => exact .failing
      | flag => exact .completing
      | write => exact .completed (by simp [written?, completedUpdate])
  | failing =>
    cases h with
    | otherRun hw => simp at hw
    | raised hin => cases hin
    | update hupd =>
      cases hupd with
      | read => exact .failing
      | conflict => exact .escaped
      | flag => exact .failing
      | write => exact .returned (by simp [written?, failUpdate])
  | completed hlast =>
    cases h with
    | otherRun hw => simp at hw
    | raised hin => cases hin
    | stagesDone => exact .returned fun job hjob => Or.inl (hlast job hjob)
  | returned hlast =>
    cases h with
    | otherRun hw => simp at hw
    | raised hin => cases hin
  | escaped =>
    cases h with
    | otherRun hw => simp at hw
    | raised hin => cases hin

end

/-! ## The stores -/

/-- `claim_next` has returned the run. -/
def Worker.pastClaim : Worker → Bool
  | .polling | .sweeping | .updating .claimNext _ _ | .updating .sweep _ _ => false
  | _ => true

theorem WorkerStep.pastClaim {dir dir' : JobDir} {w w' : Worker} {e : Event}
    (h : WorkerStep UpdateStep dir w e dir' w') (hw : w.pastClaim = true) :
    w'.pastClaim = true ∧ e ≠ .otherRun := by
  cases h with
  | otherRun hpolling =>
    rcases hpolling with rfl | rfl
    · cases hw
    · cases hw
  | @update _ caller u p p' e hupd =>
    refine ⟨?_, by simp⟩
    cases hupd <;> cases caller <;> first | rfl | cases hw
  | _ =>
    refine ⟨?_, by simp⟩
    first
    | rfl
    | cases hw

theorem CancelStep.ne_otherRun {upd : UpdateRelation} {dir dir' : JobDir} {c c' : CancelCall}
    {e : Event} (h : CancelStep upd dir c e dir' c') : e ≠ .otherRun := by
  cases h <;> simp

/-- What a call of the publisher does to the root, whether it returns or raises. -/
def PublishEffect (setup : Setup) (root root' : ReportRoot) : Prop :=
  (∃ bytes, publishReport setup.limits root setup.caseId bytes = (.ok (), root')) ∨
    PublishRaises setup.limits root setup.caseId root'

/-- After it every other case is as it was. -/
theorem PublishEffect.stores {setup : Setup} {root root' : ReportRoot}
    (h : PublishEffect setup root root') {m : String → Option Bytes}
    (hm : Reports.Stores setup.limits root m) :
    ∃ m', Reports.Stores setup.limits root' m' ∧
      ∀ caseId, caseId ≠ setup.caseId → m' caseId = m caseId := by
  rcases h with ⟨bytes, hpublish⟩ | hraises
  · have hstep := Reports.publish_refines setup.limits root m (setup.caseId, bytes) hm
    unfold Reports.publish at hstep
    rw [hpublish] at hstep
    exact ⟨_, hstep, fun caseId hne => Calls.write_of_ne m bytes hne⟩
  · cases hraises with
    | unchanged => exact ⟨m, hm, fun _ _ => rfl⟩
    | created =>
      refine ⟨m, ?_, fun _ _ => rfl⟩
      cases root with
      | none => exact hm.create
      | some dir => exact hm
    | @written bytes hid hbytes =>
      by_cases hitem : ∃ item ∈ Reports.items root, item.caseId = setup.caseId
      · obtain ⟨item, hmem, hcase⟩ := hitem
        have hstores := hm.overwrite hmem hbytes
        rw [hcase] at hstores
        exact ⟨_, hstores, fun caseId hne => Calls.write_of_ne m bytes hne⟩
      · refine ⟨m, hm.withReport ?_, fun _ _ => rfl⟩
        intro item hmem hcase
        exact hitem ⟨item, hmem, hcase⟩

section

variable {F : Type} [FloatOps F] {setup : Setup} {shared shared' : Shared F} {e : Event}

theorem SharedStep.append_cases (h : SharedStep setup shared (.call .appendWindows) shared') :
    shared'.catalog = shared.catalog ∧ ∃ windows,
      AppendStep setup.historyStore setup.sha256 shared.history windows shared'.history := by
  cases h with
  | append happend => exact ⟨rfl, _, happend⟩
  | other hne => exact absurd rfl hne

theorem SharedStep.publish_cases (h : SharedStep setup shared e shared')
    (he : Executes .publishReport e) :
    shared'.history = shared.history ∧ PublishEffect setup shared.catalog shared'.catalog := by
  cases h with
  | append => simp [Executes] at he
  | publish hpublish => exact ⟨rfl, Or.inl ⟨_, hpublish⟩⟩
  | publishRaised hraises => exact ⟨rfl, Or.inr hraises⟩
  | otherRun => simp [Executes] at he
  | other _ hnot => exact absurd he hnot

theorem SharedStep.other_cases (h : SharedStep setup shared e shared')
    (happend : e ≠ .call .appendWindows) (hpublish : ¬ Executes .publishReport e)
    (hrun : e ≠ .otherRun) : shared' = shared := by
  cases h with
  | append => exact absurd rfl happend
  | publish => exact absurd (Or.inl rfl) hpublish
  | publishRaised => exact absurd (Or.inr ⟨_, rfl⟩) hpublish
  | otherRun => exact absurd rfl hrun
  | other => rfl

/-- What the stores are, by what has been called. Each store has two cases, before its call and after
it, and nothing is said of the outcome here. -/
structure Effects (setup : Setup) (shared₀ : Shared F) (trace : List (Action ι))
    (s : JobState ι F) : Prop where
  onScript : s.system.worker.OnScript
  pastClaim : s.system.worker.pastClaim = true
  history : (¬ Called .appendWindows trace ∧ s.shared.history = shared₀.history ∧
        appendFirst s.system.worker.remaining = true) ∨
      (Called .appendWindows trace ∧ Instr.call .appendWindows ∉ s.system.worker.remaining ∧
        ∃ windows,
          AppendStep setup.historyStore setup.sha256 shared₀.history windows s.shared.history)
  catalog : ((∀ a ∈ trace, ¬ Executes .publishReport a.event) ∧ s.shared.catalog = shared₀.catalog) ∨
      ((∃ a ∈ trace, Executes .publishReport a.event) ∧ Called .appendWindows trace ∧
        PastPublish (lastWritten trace) s.system.worker ∧
        PublishEffect setup shared₀.catalog s.shared.catalog)

variable {ι : Type*} [DecidableEq ι] {shared₀ : Shared F} {trace : List (Action ι)}
  {s t : JobState ι F} {a : Action ι}

omit [DecidableEq ι] in
theorem called_snoc {c : Call} :
    Called c (trace ++ [a]) ↔ Called c trace ∨ a = ⟨.worker, .call c⟩ := by
  unfold Called
  rw [List.mem_append, List.mem_singleton, eq_comm (a := a)]

omit [DecidableEq ι] in
theorem PastPublish.not_executes {w w' : Worker} {dir : JobDir} {c : Call}
    (hw : PastPublish (lastWritten trace) w) (h : Advance dir w.remaining e w'.remaining) :
    ¬ Executes c e := by
  intro he
  obtain ⟨others, hremaining⟩ := h.executes he
  cases hw <;> simp [Worker.remaining] at hremaining

omit [DecidableEq ι] in
/-- A step of a request changes nothing here. -/
theorem Effects.cancel {system' : System ι} {i : ι} {e : Event}
    (hs : Effects setup shared₀ trace s) (hworker : system'.worker = s.system.worker)
    (hnone : ∀ c, ¬ Executes c e) :
    Effects setup shared₀ (trace ++ [⟨.cancel i, e⟩]) ⟨system', s.shared⟩ := by
  have hcalled : ∀ c, Called c (trace ++ [⟨.cancel i, e⟩]) ↔ Called c trace := by
    intro c
    simp [called_snoc]
  have hlast : lastWritten (trace ++ [⟨.cancel i, e⟩]) = lastWritten trace := by
    rw [lastWritten_snoc]
    rfl
  constructor
  · rw [hworker]
    exact hs.onScript
  · rw [hworker]
    exact hs.pastClaim
  · rw [hcalled, hworker]
    exact hs.history
  · rw [hcalled, hworker, hlast]
    rcases hs.catalog with ⟨hunpublished, hsame⟩ | ⟨⟨b, hb, hpublish⟩, hpast⟩
    · refine Or.inl ⟨?_, hsame⟩
      intro b hb
      rcases List.mem_append.mp hb with hb | hb
      · exact hunpublished b hb
      · exact List.mem_singleton.mp hb ▸ hnone _
    · exact Or.inr ⟨⟨b, List.mem_append_left _ hb, hpublish⟩, hpast⟩

section

variable {dir' : JobDir} {worker' : Worker}

omit [DecidableEq ι] in
theorem Effects.history_worker (hs : Effects setup shared₀ trace s)
    (h : WorkerStep UpdateStep s.system.dir s.system.worker e dir' worker')
    (hshared : SharedStep setup s.shared e shared') :
    (¬ Called .appendWindows (trace ++ [⟨.worker, e⟩]) ∧ shared'.history = shared₀.history ∧
        appendFirst worker'.remaining = true) ∨
      (Called .appendWindows (trace ++ [⟨.worker, e⟩]) ∧
        Instr.call .appendWindows ∉ worker'.remaining ∧ ∃ windows,
          AppendStep setup.historyStore setup.sha256 shared₀.history windows shared'.history) := by
  have hscript := hs.onScript.remaining_mem
  by_cases happend : e = .call .appendWindows
  · subst happend
    have hexecutes : Executes .appendWindows (.call .appendWindows) := Or.inl rfl
    obtain ⟨-, windows, hwindows⟩ := hshared.append_cases
    rcases hs.history with ⟨-, hsame, -⟩ | ⟨-, hspent, -⟩
    · rw [hsame] at hwindows
      exact Or.inr ⟨called_snoc.mpr (Or.inr rfl), h.advance.spent hscript (Or.inr hexecutes),
        windows, hwindows⟩
    · -- It was called before, so it is not what the worker calls now.
      obtain ⟨others, hremaining⟩ := h.advance.executes hexecutes
      rw [hremaining] at hspent
      exact absurd List.mem_cons_self hspent
  · have hcalled : Called .appendWindows (trace ++ [⟨.worker, e⟩]) ↔ Called .appendWindows trace := by
      simp [called_snoc, happend]
    have hhistory : shared'.history = s.shared.history := by
      by_cases hpublish : Executes .publishReport e
      · exact (hshared.publish_cases hpublish).1
      · rw [hshared.other_cases happend hpublish (h.pastClaim hs.pastClaim).2]
    rw [hcalled, hhistory]
    rcases hs.history with ⟨hnot, hsame, hfirst⟩ | ⟨hdone, hspent, hwindows⟩
    · exact Or.inl ⟨hnot, hsame, (h.advance.appendFirst hfirst).resolve_right happend⟩
    · exact Or.inr ⟨hdone, h.advance.spent hscript (Or.inl hspent), hwindows⟩

omit [DecidableEq ι] in
theorem Effects.catalog_worker (hs : Effects setup shared₀ trace s)
    (h : WorkerStep UpdateStep s.system.dir s.system.worker e dir' worker')
    (hshared : SharedStep setup s.shared e shared') :
    ((∀ a ∈ trace ++ [⟨.worker, e⟩], ¬ Executes .publishReport a.event) ∧
        shared'.catalog = shared₀.catalog) ∨
      ((∃ a ∈ trace ++ [⟨.worker, e⟩], Executes .publishReport a.event) ∧
        Called .appendWindows (trace ++ [⟨.worker, e⟩]) ∧
        PastPublish (lastWritten (trace ++ [⟨.worker, e⟩])) worker' ∧
        PublishEffect setup shared₀.catalog shared'.catalog) := by
  by_cases hpublish : Executes .publishReport e
  · obtain ⟨others, hremaining⟩ := h.advance.executes hpublish
    rcases hs.catalog with ⟨-, hsame⟩ | ⟨-, -, hpast, -⟩
    · right
      refine ⟨⟨_, List.mem_append_right _ (List.mem_singleton_self _), hpublish⟩, ?_,
        h.pastPublish_of_executes hs.onScript hpublish _, ?_⟩
      · rcases hs.history with ⟨-, -, hfirst⟩ | ⟨hdone, -, -⟩
        · rw [hremaining] at hfirst
          exact absurd hfirst (by simp [appendFirst])
        · exact hdone.append
      · rw [← hsame]
        exact (hshared.publish_cases hpublish).2
    · exact absurd hpublish (hpast.not_executes h.advance)
  · have hcatalog : shared'.catalog = s.shared.catalog := by
      by_cases happend : e = .call .appendWindows
      · subst happend
        exact hshared.append_cases.1
      · rw [hshared.other_cases happend hpublish (h.pastClaim hs.pastClaim).2]
    rw [hcatalog]
    rcases hs.catalog with ⟨hunpublished, hsame⟩ | ⟨⟨b, hb, hbefore⟩, hdone, hpast, heffect⟩
    · refine Or.inl ⟨?_, hsame⟩
      intro b hb
      rcases List.mem_append.mp hb with hb | hb
      · exact hunpublished b hb
      · exact List.mem_singleton.mp hb ▸ hpublish
    · exact Or.inr ⟨⟨b, List.mem_append_left _ hb, hbefore⟩, hdone.append, h.pastPublish hpast, heffect⟩

end

theorem JobStep.effects (h : JobStep setup s a t) (hs : Effects setup shared₀ trace s) :
    Effects setup shared₀ (trace ++ [a]) t := by
  obtain ⟨hstep, hshared⟩ := h
  rcases t with ⟨system', shared'⟩
  cases hstep with
  | @cancel i e dir' call' hcancel =>
    have hnone : ∀ c, ¬ Executes c e := hcancel.not_executes
    have hsame : shared' = s.shared :=
      hshared.other_cases (fun heq => hnone _ (Or.inl heq)) (hnone _) hcancel.ne_otherRun
    subst hsame
    exact hs.cancel rfl hnone
  | worker hworker =>
    exact ⟨hworker.onScript hs.onScript, (hworker.pastClaim hs.pastClaim).1,
      hs.history_worker hworker hshared, hs.catalog_worker hworker hshared⟩

/-- **What an execution leaves behind**, however it ends. Up to `append_windows` it changes neither
store, and that call appends to the history once. The catalog is as it was unless the publisher was
called, and then it is as it was for every other case; and an execution that returns a cancelled job
has not called the publisher. -/
theorem shared_after_execution (h : Run (JobStep setup) s trace t)
    (hclaimed : s.system.worker = .claimed) :
    (¬ Called .appendWindows trace → t.shared = s.shared) ∧
      (Called .appendWindows trace → ∃ windows,
        AppendStep setup.historyStore setup.sha256 s.shared.history windows t.shared.history) ∧
      ((∀ a ∈ trace, ¬ Executes .publishReport a.event) → t.shared.catalog = s.shared.catalog) ∧
      (∀ m, Reports.Stores setup.limits s.shared.catalog m →
        ∃ m', Reports.Stores setup.limits t.shared.catalog m' ∧
          ∀ caseId, caseId ≠ setup.caseId → m' caseId = m caseId) ∧
      (t.system.worker = .returned →
        ∀ job, lastWritten trace = some job → job.status = .cancelled →
          ∀ a ∈ trace, ¬ Executes .publishReport a.event) := by
  have hstart : Effects setup s.shared [] s := by
    refine ⟨?_, ?_, Or.inl ⟨by simp [Called], rfl, ?_⟩, Or.inl ⟨by simp, rfl⟩⟩
    · rw [hclaimed]
      trivial
    · rw [hclaimed]
      rfl
    · rw [hclaimed]
      exact appendFirst_executeStages
  have heffects : Effects setup s.shared trace t :=
    h.trace_invariant (I := Effects setup s.shared) (fun _ _ _ _ hI hstep => hstep.effects hI) hstart
  refine ⟨?_, ?_, ?_, ?_, ?_⟩
  · intro hnot
    have hhistory : t.shared.history = s.shared.history := by
      rcases heffects.history with ⟨-, hsame, -⟩ | ⟨hcalled, -, -⟩
      · exact hsame
      · exact absurd hcalled hnot
    have hcatalog : t.shared.catalog = s.shared.catalog := by
      rcases heffects.catalog with ⟨-, hsame⟩ | ⟨-, hcalled, -⟩
      · exact hsame
      · exact absurd hcalled hnot
    calc t.shared = ⟨t.shared.history, t.shared.catalog⟩ := rfl
      _ = ⟨s.shared.history, s.shared.catalog⟩ := by rw [hhistory, hcatalog]
  · intro hcalled
    rcases heffects.history with ⟨hnot, -, -⟩ | ⟨-, -, hwindows⟩
    · exact absurd hcalled hnot
    · exact hwindows
  · intro hunpublished
    rcases heffects.catalog with ⟨-, hsame⟩ | ⟨⟨b, hb, hpublish⟩, -⟩
    · exact hsame
    · exact absurd hpublish (hunpublished b hb)
  · intro m hm
    rcases heffects.catalog with ⟨-, hsame⟩ | ⟨-, -, -, heffect⟩
    · exact ⟨m, hsame ▸ hm, fun _ _ => rfl⟩
    · exact heffect.stores hm
  · intro hreturned job hlast hcancelled
    rcases heffects.catalog with ⟨hunpublished, -⟩ | ⟨-, -, hpast, -⟩
    · exact hunpublished
    · rw [hreturned, hlast] at hpast
      cases hpast with
      | returned hstatus =>
        have hjob := hstatus job rfl
        rw [hcancelled] at hjob
        simp at hjob

/-- The event leaves both stores alone. -/
def Event.quiet : Event → Bool
  | .call .appendWindows | .call .publishReport | .callRaised .publishReport _ | .otherRun => false
  | _ => true

/-- A part of a run that calls neither store. -/
theorem Run.quiet {system system' : System ι} {shared : Shared F}
    (h : Run (Step UpdateStep) system trace system') (hquiet : ∀ a ∈ trace, a.event.quiet = true) :
    Run (JobStep setup) ⟨system, shared⟩ trace ⟨system', shared⟩ := by
  induction h with
  | nil => exact .nil _
  | @snoc t u trace a hinit hlast ih =>
    have hbefore := ih fun b hb => hquiet b (List.mem_append_left _ hb)
    have hevent := hquiet a (List.mem_append_right _ (List.mem_singleton_self a))
    refine hbefore.snoc ⟨hlast, .other ?_ ?_ ?_⟩
    · intro heq
      rw [heq] at hevent
      cases hevent
    · rintro (heq | ⟨exc, heq⟩) <;> rw [heq] at hevent <;> cases hevent
    · intro heq
      rw [heq] at hevent
      cases hevent

end

/-! ## A run cancelled after the append -/

section

variable {ι : Type*} [DecidableEq ι] {dir : JobDir} {rest : List Instr} {cancels : ι → CancelCall}
  {trace : List (Action ι)} {t : System ι}

/-- A check that nobody comes in between and that finds nothing. -/
theorem run_check (hclear : dir.isCancelRequested = false)
    (h : Run (Step UpdateStep) ⟨dir, .stages rest, cancels⟩ trace t) :
    Run (Step UpdateStep) ⟨dir, .stages (.check :: rest), cancels⟩
      (⟨.worker, .getJob⟩ :: ⟨.worker, .readFlag⟩ :: trace) t := by
  rw [JobDir.isCancelRequested, Bool.or_eq_false_iff] at hclear
  exact .cons (.worker (.recordClear hclear.1)) (.cons (.worker (.flagAbsent hclear.2)) h)

/-- An update of the body that nobody comes in between. -/
theorem run_update {u : JobUpdate} (hguard : u.refuses dir.job = false)
    (h : Run (Step UpdateStep) ⟨⟨u.patch dir.job, u.flag dir.cancelFlag⟩, .stages rest, cancels⟩
      trace t) :
    Run (Step UpdateStep) ⟨dir, .stages (.update u :: rest), cancels⟩
      (⟨.worker, .callUpdate⟩ :: ⟨.worker, .update .read⟩ :: ⟨.worker, .update .flag⟩ ::
        ⟨.worker, .update (.write (u.patch dir.job))⟩ :: trace) t := by
  refine .cons (.worker .callUpdate) (.cons (.worker (.update (UpdateStep.read hguard))) ?_)
  exact .cons (.worker (.update UpdateStep.flag)) (.cons (.worker (.update UpdateStep.write)) h)

end

/-- The record in this stage. -/
def inStage (stage : AnalysisStage) : AnalysisJob := { status := .running, stage := stage }

/-- The actions of the worker up to its append. -/
def beforeAppend : List (Action Unit) :=
  [.getJob,
    .getJob, .readFlag,
    .callUpdate, .update .read, .update .flag, .update (.write (inStage .deterministicAnalysis)),
    .call .capturePath, .call .policyProfile, .call .analyze,
    .getJob, .readFlag,
    .callUpdate, .update .read, .update .flag, .update (.write (inStage .policyScoring)),
    .call .assembleReport,
    .getJob, .readFlag,
    .callUpdate, .update .read, .update .flag, .update (.write (inStage .mlAdvisory)),
    .call .loadWindows, .call .attachAdvisories].map fun e => ⟨.worker, e⟩

/-- The worker is about to append. -/
def aboutToAppend : System Unit where
  dir := { job := inStage .mlAdvisory }
  worker := .stages (executeStages.drop 12)
  cancels := fun _ => .idle

theorem run_beforeAppend : Run (Step UpdateStep)
    ⟨{ job := inStage .intake }, .claimed, fun _ => .idle⟩ beforeAppend aboutToAppend := by
  refine .cons (.worker (.start rfl)) ?_
  refine run_check rfl (run_update rfl ?_)
  refine .cons (.worker .call) (.cons (.worker .call) (.cons (.worker .call) ?_))
  refine run_check rfl (run_update rfl ?_)
  refine .cons (.worker .call) ?_
  refine run_check rfl (run_update rfl ?_)
  exact .cons (.worker .call) (.single (.worker .call))

/-- The record of the request. -/
def requestedJob : AnalysisJob := { inStage .mlAdvisory with cancelRequested := true }

/-- What the check after the append finds, and does. -/
def afterAppend : List (Action Unit) :=
  [⟨.cancel (), .getJob⟩, ⟨.cancel (), .update .read⟩, ⟨.cancel (), .update .flag⟩,
    ⟨.cancel (), .update (.write requestedJob)⟩] ++
  [.getJob,
    .callUpdate, .update .read, .update .flag,
    .update (.write { requestedJob with status := .cancelled }),
    .returned].map fun e => ⟨.worker, e⟩

def cancelledAfterAppend : System Unit where
  dir := { job := { requestedJob with status := .cancelled }, cancelFlag := true }
  worker := .returned
  cancels := fun _ => .returned

theorem run_afterAppend : Run (Step UpdateStep)
    { aboutToAppend with worker := .stages (executeStages.drop 13) } afterAppend
    cancelledAfterAppend := by
  have hcancels : ∀ (calls : Unit → CancelCall) (call : CancelCall),
      Function.update calls () call = fun _ => call := by
    intro calls call
    funext i
    simp
  refine .cons (.cancel (.load rfl)) ?_
  refine .cons (.cancel (.update (UpdateStep.read rfl))) ?_
  refine .cons (.cancel (.update UpdateStep.flag)) ?_
  refine .cons (.cancel (.update UpdateStep.write)) ?_
  refine .cons (.worker (.recordCancelled rfl)) ?_
  refine run_update rfl ?_
  rw [hcancels]
  exact .single (.worker .stagesDone)

/-! The windows are those of a first capture. -/

def firstSetup : Setup where
  sha256 := fun _ => Ml.zeroDigest
  caseId := "first"

def emptyStores : Shared Rat := ⟨[], none⟩

def cancelledTrace : List (Action Unit) :=
  beforeAppend ++ ⟨.worker, .call .appendWindows⟩ :: afterAppend

theorem run_cancelled : Run (JobStep firstSetup)
    ⟨⟨{ job := inStage .intake }, .claimed, fun _ => .idle⟩, emptyStores⟩ cancelledTrace
    ⟨cancelledAfterAppend, { emptyStores with history := Ml.firstWindows }⟩ := by
  have happend : AppendStep firstSetup.historyStore firstSetup.sha256 emptyStores.history
      Ml.firstWindows Ml.firstWindows := Ml.appendStep_firstWindows
  have hstep : JobStep firstSetup ⟨aboutToAppend, emptyStores⟩ ⟨.worker, .call .appendWindows⟩
      ⟨{ aboutToAppend with worker := .stages (executeStages.drop 13) },
        { emptyStores with history := Ml.firstWindows }⟩ := ⟨.worker .call, .append happend⟩
  refine (Run.quiet run_beforeAppend (by decide)).append (Run.cons hstep ?_)
  exact Run.quiet run_afterAppend (by decide)

/-- The run returns a cancelled job, and the history has its windows. -/
theorem cancelled_run_appends :
    ¬ ∀ (setup : Setup) (s t : JobState Unit Rat) (trace : List (Action Unit)),
      Run (JobStep setup) s trace t → s.system.worker = .claimed → t.system.worker = .returned →
        (∃ job, lastWritten trace = some job ∧ (job.status = .failed ∨ job.status = .cancelled)) →
        t.shared = s.shared := by
  intro hall
  have hsame := hall firstSetup _ _ _ run_cancelled rfl rfl ⟨_, rfl, Or.inr rfl⟩
  have hhistory : Ml.firstWindows.length = 0 := congrArg (fun shared => shared.history.length) hsame
  exact absurd hhistory (by decide +kernel)

theorem cancelled_run_leaves :
    (∃ windows, AppendStep (F := Rat) {} (fun _ => Ml.zeroDigest) [] windows Ml.firstWindows) ∧
      ∀ a ∈ cancelledTrace, ¬ Executes .publishReport a.event := by
  have hleft := shared_after_execution run_cancelled rfl
  refine ⟨hleft.2.1 ?_, hleft.2.2.2.2 rfl _ rfl rfl⟩
  exact List.mem_append_right _ List.mem_cons_self

end Jobs
end SecureMail
