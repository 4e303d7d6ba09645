import SecureMail.Jobs.SharedState

/-!
# The artifacts of a run, and who downloads them

The body of `execute_capture_job` renders a report in three forms, writes them beside the record, and
only then marks the run as completed. A download is made by another process: it reads the record, and
if that says completed it reads the file. Between the two reads the worker and any number of requests
to cancel may take steps. What a download gets is nevertheless what was rendered.

It holds because of an order that no line of the code states: a file is written before the record
says completed, it is replaced in one rename, and nothing writes it again. A record that says
completed may be a stale copy, but only of a record that was written after the files were, and that
is the part of `Jobs.Cancellation` the proof rests on.

A download that is not ready and one that finds no file are different answers of the server. The
second never occurs here; it is in the model because the code has it.
-/

namespace SecureMail
namespace Jobs

open Transition
open Reports (Bytes)

inductive ArtifactName
  | reportJson | reportHtml | reportPdf
deriving DecidableEq, Repr

namespace ArtifactName

/-- `_ARTIFACT_LIMITS`. -/
def limit : ArtifactName → Nat
  | .reportJson => 8 * 1024 * 1024
  | .reportHtml => 16 * 1024 * 1024
  | .reportPdf => 32 * 1024 * 1024

/-- The call of the body that writes it. -/
def writes : ArtifactName → Call
  | .reportJson => .writeReportJson
  | .reportHtml => .writeReportHtml
  | .reportPdf => .writeReportPdf

theorem writes_injective : Function.Injective writes := by
  intro n m h
  cases n <;> cases m <;> first | rfl | cases h

theorem writes_ne_render (n : ArtifactName) : n.writes ≠ .renderReport := by
  cases n <;> decide

theorem writes_mem_executeStages (n : ArtifactName) : .call n.writes ∈ executeStages := by
  cases n <;> decide

end ArtifactName

/-- The variable `rendered` of the body, and the directory `artifacts`. The first is in the memory of
the worker and no download sees it; it is what the files are compared with. -/
structure Artifacts where
  rendered : Option (ArtifactName → Bytes) := none
  files : ArtifactName → Option Bytes := fun _ => none

namespace Artifacts

/-- A file is replaced. -/
def put (a : Artifacts) (n : ArtifactName) (payload : Bytes) : Artifacts :=
  { a with files := Function.update a.files n (some payload) }

@[simp] theorem rendered_put (a : Artifacts) (n : ArtifactName) (payload : Bytes) :
    (a.put n payload).rendered = a.rendered := rfl

@[simp] theorem files_put_self (a : Artifacts) (n : ArtifactName) (payload : Bytes) :
    (a.put n payload).files n = some payload := Function.update_self ..

theorem files_put_of_ne (a : Artifacts) {n m : ArtifactName} (payload : Bytes) (h : n ≠ m) :
    (a.put m payload).files n = a.files n := Function.update_of_ne h ..

end Artifacts

/-- What an event does to them. `write_artifact` replaces the file last of all, so it raises with the
file as it was. -/
inductive ArtifactStep : Artifacts → Event → Artifacts → Prop
  | render {a : Artifacts} {rendered : ArtifactName → Bytes} :
      ArtifactStep a (.call .renderReport) { a with rendered := some rendered }
  | write {a : Artifacts} {n : ArtifactName} {rendered : ArtifactName → Bytes} :
      a.rendered = some rendered → (rendered n).length ≤ n.limit →
      ArtifactStep a (.call n.writes) (a.put n (rendered n))
  | other {a : Artifacts} {e : Event} : e ≠ .call .renderReport →
      (∀ n : ArtifactName, e ≠ .call n.writes) → ArtifactStep a e a

/-- `read_job_artifact`. The record is read before the file, and other parties may come in between
the two. -/
inductive Download
  | idle
  /-- The record was read, and says completed. -/
  | ready
  | served (payload : Bytes)
  /-- `ArtifactNotReadyError("analysis artifacts are not ready")` -/
  | notReady
  /-- `ArtifactNotReadyError("analysis artifact is missing")` -/
  | missing
  /-- `AnalysisJobError` of `_read_file`. -/
  | tooLarge
deriving DecidableEq, Repr

inductive DownloadStep (n : ArtifactName) (dir : JobDir) (a : Artifacts) : Download → Download → Prop
  | notReady : dir.job.status ≠ .completed → DownloadStep n dir a .idle .notReady
  | ready : dir.job.status = .completed → DownloadStep n dir a .idle .ready
  | missing : a.files n = none → DownloadStep n dir a .ready .missing
  | served {payload : Bytes} : a.files n = some payload → payload.length ≤ n.limit →
      DownloadStep n dir a .ready (.served payload)
  | tooLarge {payload : Bytes} : a.files n = some payload → n.limit < payload.length →
      DownloadStep n dir a .ready .tooLarge

/-- The parties of one run, its artifacts and its downloads. -/
structure Site (ι κ : Type*) where
  system : System ι
  artifacts : Artifacts
  downloads : κ → Download

variable {ι κ : Type*} [DecidableEq ι] [DecidableEq κ]

/-- A step of the worker or of a request, or of a download of the file that `names` has for it. -/
inductive SiteStep (names : κ → ArtifactName) : Site ι κ → Action ι ⊕ κ → Site ι κ → Prop
  | job {site : Site ι κ} {a : Action ι} {system' : System ι} {artifacts' : Artifacts} :
      Step UpdateStep site.system a system' → ArtifactStep site.artifacts a.event artifacts' →
      SiteStep names site (.inl a) { site with system := system', artifacts := artifacts' }
  | download {site : Site ι κ} {k : κ} {download' : Download} :
      DownloadStep (names k) site.system.dir site.artifacts (site.downloads k) download' →
      SiteStep names site (.inr k)
        { site with downloads := Function.update site.downloads k download' }

/-- A run that intake has just committed. -/
def Site.opened : Site ι κ where
  system := enqueued
  artifacts := {}
  downloads := fun _ => .idle

/-! ## The body, around the artifacts -/

/-- No statement makes the same call again, and behind a write nothing is rendered. -/
def renderFirst : List Instr → Bool
  | .call .renderReport :: rest => !rest.contains (.call .renderReport)
  | .call .writeReportJson :: rest | .call .writeReportHtml :: rest
  | .call .writeReportPdf :: rest => !rest.contains (.call .renderReport)
  | _ => true

theorem renderFirst_of_mem_scripts : ∀ rest ∈ scripts, renderFirst rest = true := by decide

theorem not_render_behind_render {rest : List Instr} (h : .call .renderReport :: rest ∈ scripts) :
    .call .renderReport ∉ rest := by
  simpa [renderFirst] using renderFirst_of_mem_scripts _ h

theorem not_render_behind_write {n : ArtifactName} {rest : List Instr}
    (h : .call n.writes :: rest ∈ scripts) : .call .renderReport ∉ rest := by
  cases n <;> simpa [renderFirst, ArtifactName.writes] using renderFirst_of_mem_scripts _ h

/-- The statement that completes the run is the last. -/
def completesLast : List Instr → Bool
  | .update u :: rest => u.status != some .completed || (u == completedUpdate && rest == [])
  | _ => true

theorem completesLast_of_mem_scripts : ∀ rest ∈ scripts, completesLast rest = true := by decide

omit [DecidableEq ι] in
/-- While an update in flight completes the run, the body has nothing else left. -/
theorem System.OnScript.completing {s : System ι} (hs : s.OnScript) {party : Party ι}
    {u : JobUpdate} {p : UpdateProgress} (h : s.updateOf party = some (u, p))
    (hu : u.status = some .completed) : s.worker.remaining = [.update completedUpdate] := by
  obtain ⟨rest, hrest⟩ := hs.completes h hu
  have hlast := completesLast_of_mem_scripts _ hs.worker.remaining_mem
  rw [hrest] at hlast ⊢
  simp only [completesLast, hu, bne_self_eq_false, Bool.false_or, Bool.and_eq_true,
    beq_iff_eq] at hlast
  rw [hlast.1, hlast.2]

/-- What a step does to the statements that are left and to the artifacts: it leaves the artifacts
alone and goes past no statement that would change them, or it is such a statement. -/
inductive Progress (rest : List Instr) (a : Artifacts) : List Instr → Artifacts → Prop
  | quiet {rest' : List Instr} :
      (.update completedUpdate ∈ rest' → .update completedUpdate ∈ rest ∧
        ∀ n : ArtifactName, .call n.writes ∈ rest → .call n.writes ∈ rest') →
      (.call .renderReport ∈ rest' → .call .renderReport ∈ rest) → Progress rest a rest' a
  | render {rest' : List Instr} {rendered : ArtifactName → Bytes} :
      rest = .call .renderReport :: rest' →
      Progress rest a rest' { a with rendered := some rendered }
  | write {rest' : List Instr} {n : ArtifactName} {rendered : ArtifactName → Bytes} :
      rest = .call n.writes :: rest' → a.rendered = some rendered →
      (rendered n).length ≤ n.limit →
      Progress rest a rest' (a.put n (rendered n))

theorem Progress.same (rest : List Instr) (a : Artifacts) : Progress rest a rest a :=
  .quiet (fun h => ⟨h, fun _ hn => hn⟩) id

theorem WorkerStep.call_cases {upd : UpdateRelation} {dir dir' : JobDir} {w w' : Worker} {c : Call}
    (h : WorkerStep upd dir w (.call c) dir' w') :
    w.remaining = .call c :: w'.remaining := by
  cases h
  rfl

/-- A statement in front that changes no artifact. -/
theorem Progress.behind {i : Instr} {rest : List Instr} (a : Artifacts)
    (hi : ∀ n : ArtifactName, i ≠ .call n.writes) : Progress (i :: rest) a rest a := by
  refine .quiet (fun h => ⟨List.mem_cons_of_mem i h, ?_⟩) (List.mem_cons_of_mem i)
  intro n hn
  exact (List.mem_cons.mp hn).resolve_left (hi n).symm

theorem WorkerStep.progress {upd : UpdateRelation} {dir dir' : JobDir} {w w' : Worker} {e : Event}
    {a a' : Artifacts} (h : WorkerStep upd dir w e dir' w') (ha : ArtifactStep a e a') :
    Progress w.remaining a w'.remaining a' := by
  cases ha with
  | render => exact .render h.call_cases
  | write hrendered hlength => exact .write h.call_cases hrendered hlength
  | other hrender hwrite =>
    have hadvance := h.advance
    generalize w.remaining = rest at hadvance ⊢
    generalize w'.remaining = rest' at hadvance ⊢
    cases hadvance with
    | stay => exact .same rest a
    | check => exact .behind a (by simp)
    | update => exact .behind a (by simp)
    | call =>
      apply Progress.behind a
      intro n hn
      exact hwrite n (by simpa using hn)
    | cancelled => exact .quiet (by simp [completedUpdate, cancelledUpdate]) (by simp)
    | left => exact .quiet (by simp) (by simp)

/-! ## What holds at every moment -/

/-- The artifacts are those of one rendering, and they are all there before the run completes. It is
kept by every statement of the worker, since the artifacts of one run are written from one
rendering. -/
structure Filed (rest : List Instr) (a : Artifacts) : Prop where
  /-- Before the body renders there is nothing. -/
  unrendered : .call .renderReport ∈ rest → ∀ n, a.files n = none
  filed : ∀ n payload, a.files n = some payload →
    ∃ rendered, a.rendered = some rendered ∧ payload = rendered n ∧ payload.length ≤ n.limit
  /-- On the way to the last statement, what is not to be written any more is there. -/
  written : .update completedUpdate ∈ rest →
    ∀ n : ArtifactName, .call n.writes ∉ rest → (a.files n).isSome

/-- Files stay, as they are. -/
theorem Progress.keeps {rest rest' : List Instr} {a a' : Artifacts} (h : Progress rest a rest' a')
    (hfiled : Filed rest a) (n : ArtifactName) {payload : Bytes} (hn : a.files n = some payload) :
    a'.files n = some payload ∧ a'.rendered = a.rendered := by
  cases h with
  | quiet => exact ⟨hn, rfl⟩
  | render hrest =>
    have hnone := hfiled.unrendered (by rw [hrest]; exact List.mem_cons_self) n
    rw [hnone] at hn
    cases hn
  | @write m rendered hrest hrendered hlength =>
    obtain ⟨rendered', hrendered', rfl, -⟩ := hfiled.filed n payload hn
    refine ⟨?_, rfl⟩
    by_cases hm : n = m
    · subst hm
      rw [hrendered] at hrendered'
      rw [Option.some.inj hrendered', Artifacts.files_put_self]
    · rw [Artifacts.files_put_of_ne a _ hm, hn]

theorem Progress.filed {rest rest' : List Instr} {a a' : Artifacts} (h : Progress rest a rest' a')
    (hscript : rest ∈ scripts) (hfiled : Filed rest a) : Filed rest' a' := by
  cases h with
  | quiet hcompletes hrender =>
    refine ⟨fun h => hfiled.unrendered (hrender h), hfiled.filed, ?_⟩
    intro hmem n hn
    obtain ⟨hrest, hwrites⟩ := hcompletes hmem
    exact hfiled.written hrest n fun h => hn (hwrites n h)
  | render hrest =>
    subst hrest
    have hnone := hfiled.unrendered List.mem_cons_self
    refine ⟨fun h => absurd h (not_render_behind_render hscript), ?_, ?_⟩
    · intro n payload hn
      rw [hnone n] at hn
      cases hn
    · intro hmem n hn
      refine hfiled.written (List.mem_cons_of_mem _ hmem) n ?_
      intro h
      rcases List.mem_cons.mp h with heq | h
      · exact n.writes_ne_render (by simpa using heq)
      · exact hn h
  | @write m rendered hrest hrendered hlength =>
    subst hrest
    refine ⟨fun h => absurd h (not_render_behind_write hscript), ?_, ?_⟩
    · intro n payload hn
      by_cases hm : n = m
      · subst hm
        rw [Artifacts.files_put_self] at hn
        obtain rfl := Option.some.inj hn
        exact ⟨rendered, hrendered, rfl, hlength⟩
      · rw [Artifacts.files_put_of_ne a _ hm] at hn
        exact hfiled.filed n payload hn
    · intro hmem n hn
      by_cases hm : n = m
      · subst hm
        rw [Artifacts.files_put_self]
        rfl
      · rw [Artifacts.files_put_of_ne a _ hm]
        refine hfiled.written (List.mem_cons_of_mem _ hmem) n ?_
        intro h
        rcases List.mem_cons.mp h with heq | h
        · exact hm (ArtifactName.writes_injective (by simpa using heq))
        · exact hn h

omit [DecidableEq ι] in
/-- A system in which some artifact is missing is not about to complete the run. -/
theorem not_completing {s : System ι} (hs : s.OnScript) {a : Artifacts}
    (hfiled : Filed s.worker.remaining a) {n : ArtifactName} (hn : a.files n = none)
    {party : Party ι} {u : JobUpdate} {p : UpdateProgress}
    (h : s.updateOf party = some (u, p)) : u.status ≠ some .completed := by
  intro hu
  rw [hs.completing h hu] at hfiled
  have hsome := hfiled.written (by simp) n (by simp)
  rw [hn] at hsome
  cases hsome

/-- What a download has reached is so. -/
def Download.Sound (n : ArtifactName) (a : Artifacts) : Download → Prop
  | .idle | .notReady => True
  | .ready => ∃ payload, a.files n = some payload
  | .served payload => a.files n = some payload
  | .missing | .tooLarge => False

structure Site.Sound (names : κ → ArtifactName) (site : Site ι κ) : Prop where
  onScript : site.system.OnScript
  filed : Filed site.system.worker.remaining site.artifacts
  /-- Without all artifacts, nothing says completed. -/
  incomplete : ∀ n, site.artifacts.files n = none →
    site.system.Everywhere (·.status ≠ .completed)
  downloads : ∀ k, (site.downloads k).Sound (names k) site.artifacts

theorem Download.Sound.keeps {n : ArtifactName} {rest rest' : List Instr} {a a' : Artifacts}
    {download : Download} (h : download.Sound n a) (hprogress : Progress rest a rest' a')
    (hfiled : Filed rest a) : download.Sound n a' := by
  cases download with
  | ready =>
    obtain ⟨payload, hn⟩ := h
    exact ⟨payload, (hprogress.keeps hfiled n hn).1⟩
  | served payload => exact (hprogress.keeps hfiled n h).1
  | _ => exact h

/-- A file is there where the record says completed, and it is not too large to be read. -/
theorem DownloadStep.sound {n : ArtifactName} {dir : JobDir} {a : Artifacts}
    {download download' : Download} (h : DownloadStep n dir a download download')
    (hsound : download.Sound n a)
    (hcompleted : dir.job.status = .completed → ∃ payload, a.files n = some payload)
    (hlimit : ∀ payload, a.files n = some payload → payload.length ≤ n.limit) :
    download'.Sound n a := by
  cases h with
  | notReady => trivial
  | ready hstatus => exact hcompleted hstatus
  | missing hnone =>
    obtain ⟨payload, hfile⟩ := hsound
    rw [hnone] at hfile
    cases hfile
  | served hfile => exact hfile
  | tooLarge hfile hlarge => exact absurd (hlimit _ hfile) (not_le.mpr hlarge)

theorem Step.progress {s s' : System ι} {action : Action ι} {a a' : Artifacts}
    (h : Step UpdateStep s action s') (ha : ArtifactStep a action.event a') :
    Progress s.worker.remaining a s'.worker.remaining a' := by
  cases h with
  | worker h => exact h.progress ha
  | cancel h =>
    cases ha with
    | render => exact absurd (Or.inl rfl) (h.not_executes .renderReport)
    | @write n => exact absurd (Or.inl rfl) (h.not_executes n.writes)
    | other => exact .same _ a

theorem SiteStep.sound {names : κ → ArtifactName} {site site' : Site ι κ} {action : Action ι ⊕ κ}
    (h : SiteStep names site action site') (hsound : site.Sound names) : site'.Sound names := by
  cases h with
  | @job action system' artifacts' hstep hartifacts =>
    have hprogress := hstep.progress hartifacts
    refine ⟨hstep.onScript hsound.onScript,
      hprogress.filed hsound.onScript.worker.remaining_mem hsound.filed, ?_, ?_⟩
    · intro n hn
      have hnone : site.artifacts.files n = none := by
        cases hbefore : site.artifacts.files n with
        | none => rfl
        | some payload =>
          have hafter := (hprogress.keeps hsound.filed n hbefore).1
          rw [hafter] at hn
          cases hn
      apply hstep.everywhere (hsound.incomplete n hnone)
      intro party u p current hu hcurrent
      have hstatus := not_completing hsound.onScript hsound.filed hnone hu
      intro hpatch
      cases hset : u.status with
      | none => exact hcurrent (by simpa [JobUpdate.patch, hset] using hpatch)
      | some status =>
        have hcompleted : status = .completed := by simpa [JobUpdate.patch, hset] using hpatch
        exact hstatus (by rw [hset, hcompleted])
    · intro k
      exact (hsound.downloads k).keeps hprogress hsound.filed
  | @download k download' hdownload =>
    refine ⟨hsound.onScript, hsound.filed, hsound.incomplete, ?_⟩
    intro k'
    by_cases hk : k' = k
    · subst hk
      simp only [Function.update_self]
      apply hdownload.sound (hsound.downloads k')
      · intro hcompleted
        cases hfile : site.artifacts.files (names k') with
        | none => exact absurd hcompleted (hsound.incomplete _ hfile).record
        | some payload => exact ⟨payload, rfl⟩
      · intro payload hfile
        obtain ⟨rendered, -, -, hlength⟩ := hsound.filed.filed _ _ hfile
        exact hlength
    · simp only [Function.update_of_ne hk]
      exact hsound.downloads k'

omit [DecidableEq ι] [DecidableEq κ] in
theorem sound_opened (names : κ → ArtifactName) : (Site.opened : Site ι κ).Sound names where
  onScript := onScript_enqueued
  filed := by
    refine ⟨fun _ _ => rfl, by simp [Site.opened], ?_⟩
    intro _ n hn
    exact absurd (n.writes_mem_executeStages) hn
  incomplete := by
    refine fun _ _ => ⟨by simp [Site.opened, enqueued], ?_⟩
    intro party u p current hu
    cases party <;> simp [Site.opened, enqueued, System.updateOf] at hu
  downloads := fun _ => trivial

/-- **A download gets what was rendered**, whatever the worker and the requests to cancel do between
its two reads: it is refused, or it is served the artifact of the one rendering of the run, and never
told that an artifact is missing. -/
theorem downloads_serve_rendered {names : κ → ArtifactName} {trace : List (Action ι ⊕ κ)}
    {site : Site ι κ} (h : Run (SiteStep names) Site.opened trace site) (k : κ) :
    (site.downloads k = .idle ∨ site.downloads k = .ready ∨ site.downloads k = .notReady ∨
      ∃ rendered, site.artifacts.rendered = some rendered ∧
        site.downloads k = .served (rendered (names k))) ∧
      (site.system.dir.job.status = .completed → ∃ rendered,
        site.artifacts.rendered = some rendered ∧
          ∀ n, site.artifacts.files n = some (rendered n)) := by
  have hsound : site.Sound names :=
    h.invariant (fun _ _ _ hs hstep => hstep.sound hs) (sound_opened names)
  constructor
  · have hk := hsound.downloads k
    cases hdownload : site.downloads k with
    | idle => exact Or.inl rfl
    | ready => exact Or.inr (Or.inl rfl)
    | notReady => exact Or.inr (Or.inr (Or.inl rfl))
    | served payload =>
      rw [hdownload] at hk
      obtain ⟨rendered, hrendered, rfl, -⟩ := hsound.filed.filed _ _ hk
      exact Or.inr (Or.inr (Or.inr ⟨rendered, hrendered, rfl⟩))
    | missing =>
      rw [hdownload] at hk
      exact hk.elim
    | tooLarge =>
      rw [hdownload] at hk
      exact hk.elim
  · intro hcompleted
    have hall : ∀ n, ∃ payload, site.artifacts.files n = some payload := by
      intro n
      cases hfile : site.artifacts.files n with
      | none => exact absurd hcompleted (hsound.incomplete n hfile).record
      | some payload => exact ⟨payload, rfl⟩
    obtain ⟨payload, hjson⟩ := hall .reportJson
    obtain ⟨rendered, hrendered, -, -⟩ := hsound.filed.filed _ _ hjson
    refine ⟨rendered, hrendered, ?_⟩
    intro n
    obtain ⟨payload', hfile⟩ := hall n
    obtain ⟨rendered', hrendered', rfl, -⟩ := hsound.filed.filed _ _ hfile
    rw [hrendered] at hrendered'
    rw [hfile, Option.some.inj hrendered']

/-! ## A run that is downloaded -/

/-- The event changes no artifact. -/
def Event.unfiled : Event → Bool
  | .call .renderReport | .call .writeReportJson | .call .writeReportHtml
  | .call .writeReportPdf => false
  | _ => true

/-- A part of a run that changes no artifact. -/
theorem Run.unfiled (names : κ → ArtifactName) (artifacts : Artifacts) (downloads : κ → Download)
    {s t : System ι} {trace : List (Action ι)} (h : Run (Step UpdateStep) s trace t)
    (hunfiled : ∀ a ∈ trace, a.event.unfiled = true) :
    Run (SiteStep names) ⟨s, artifacts, downloads⟩ (trace.map .inl) ⟨t, artifacts, downloads⟩ := by
  induction h with
  | nil => exact .nil _
  | @snoc t u trace a _ hlast ih =>
    have hbefore := ih fun b hb => hunfiled b (List.mem_append_left _ hb)
    have hevent := hunfiled a (List.mem_append_right _ (List.mem_singleton_self a))
    rw [List.map_append]
    refine hbefore.snoc (SiteStep.job hlast (.other ?_ ?_))
    · intro heq
      rw [heq] at hevent
      cases hevent
    · intro n heq
      rw [heq] at hevent
      cases n <;> cases hevent

/-- The worker before it renders. -/
def aboutToRender : System Unit where
  dir := { job := inStage .reportRendering }
  worker := .stages (executeStages.drop 15)
  cancels := fun _ => .idle

theorem run_aboutToRender : ∃ trace, Run (Step UpdateStep) (enqueued : System Unit) trace aboutToRender ∧
    ∀ a ∈ trace, a.event.unfiled = true := by
  refine ⟨_, .cons (.worker (.select rfl)) (.cons (.worker (.update (UpdateStep.read rfl)))
    (.cons (.worker (.update UpdateStep.flag)) (.cons (.worker (.update UpdateStep.write))
      (run_beforeAppend.append (.cons (.worker .call) (run_check rfl (run_update rfl
        (.nil _)))))))), ?_⟩
  decide

/-- The worker when it has marked the run. -/
def markedCompleted : System Unit where
  dir := { job := completedUpdate.patch (inStage .publication) }
  worker := .stages []
  cancels := fun _ => .idle

theorem run_markedCompleted : ∃ trace, Run (Step UpdateStep)
    { aboutToRender with worker := .stages (executeStages.drop 19) } trace markedCompleted ∧
    ∀ a ∈ trace, a.event.unfiled = true := by
  refine ⟨_, run_check rfl (run_update rfl (.cons (.worker .call) (run_update rfl (.nil _)))), ?_⟩
  decide

/-- The three artifacts of the run, and the one download that is made of it. -/
def shortReport : ArtifactName → Bytes
  | .reportJson => [123, 125]
  | .reportHtml => [60, 62]
  | .reportPdf => [37]

/-- What is there when all are written. -/
def shortArtifacts : Artifacts :=
  (((⟨some shortReport, fun _ => none⟩ : Artifacts).put .reportJson (shortReport .reportJson)).put
    .reportHtml (shortReport .reportHtml)).put .reportPdf (shortReport .reportPdf)

theorem run_downloaded : ∃ trace site,
    Run (SiteStep fun _ : Unit => .reportHtml) (Site.opened : Site Unit Unit) trace site ∧
      site.downloads () = .served (shortReport .reportHtml) := by
  obtain ⟨before, hbefore, hquiet⟩ := run_aboutToRender
  obtain ⟨after, hafter, hquiet'⟩ := run_markedCompleted
  have hstart := Run.unfiled (fun _ : Unit => .reportHtml) {} (fun _ => .idle) hbefore hquiet
  have hend := Run.unfiled (fun _ : Unit => .reportHtml) shortArtifacts (fun _ => .idle) hafter
    hquiet'
  have hrender : SiteStep (fun _ : Unit => .reportHtml) ⟨aboutToRender, {}, fun _ => .idle⟩
      (.inl ⟨.worker, .call .renderReport⟩)
      ⟨{ aboutToRender with worker := .stages (executeStages.drop 16) },
        ⟨some shortReport, fun _ => none⟩, fun _ => .idle⟩ :=
    .job (.worker .call) .render
  have hready : SiteStep (fun _ : Unit => .reportHtml)
      ⟨markedCompleted, shortArtifacts, fun _ => .idle⟩ (.inr ())
      ⟨markedCompleted, shortArtifacts, Function.update (fun _ => .idle) () .ready⟩ :=
    .download (.ready rfl)
  have hserved : SiteStep (fun _ : Unit => .reportHtml)
      ⟨markedCompleted, shortArtifacts, Function.update (fun _ => .idle) () .ready⟩ (.inr ())
      ⟨markedCompleted, shortArtifacts, Function.update (Function.update (fun _ => .idle) () .ready)
        () (.served (shortReport .reportHtml))⟩ :=
    .download (.served rfl (by decide))
  have hwrites := (Run.single hrender).snoc
    (.job (.worker .call) (.write (n := .reportJson) rfl (by decide)))
  have hwrites := hwrites.snoc (.job (.worker .call) (.write (n := .reportHtml) rfl (by decide)))
  have hwrites := hwrites.snoc (.job (.worker .call) (.write (n := .reportPdf) rfl (by decide)))
  exact ⟨_, _, ((hstart.append hwrites).append hend).append (.cons hready (.single hserved)),
    by simp⟩

/-- It is served what was rendered. -/
theorem downloads_serve_rendered_html : ∃ site : Site Unit Unit,
    site.downloads () = .served (shortReport .reportHtml) ∧ ∃ rendered,
      site.artifacts.rendered = some rendered ∧
        site.downloads () = .served (rendered .reportHtml) := by
  obtain ⟨trace, site, hrun, hserved⟩ := run_downloaded
  refine ⟨site, hserved, ?_⟩
  have hall := (downloads_serve_rendered hrun ()).1
  simpa [hserved] using hall

end Jobs
end SecureMail
