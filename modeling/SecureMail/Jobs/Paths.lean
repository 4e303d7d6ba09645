import SecureMail.Jobs.QueueSteps
import SecureMail.Lib.Template

/-!
# The text of a failure

The handler of `execute_capture_job` keeps `str(exc)` in the record. Most exceptions say what is wrong
in words of their own, but some name a file below the data root: an `OSError` quotes the file it is
about, the two first checks of `run_analysis` end with the path of the capture, and what an analyzer
has written to its standard error may have the path it was started with.

The same execution over two data roots is the same plan of what happens at each statement. It leaves
two records that are equal unless the exception that is stored names a file within its first thousand
characters (`record_same_iff`).

Two records that are equal may still show a path, one that is the same over every data root: a snapshot
that is looked for below `/opt`, the directory of an analyzer, a report root of its own. Such a path is
among the words of the text, so whether a record shows one is read off the words too: a slash that goes
on with no name begins an absolute path (`showsPath`). Both halves together are `HidesPaths`.
-/

namespace SecureMail
namespace Jobs

/-! ## Paths -/

/-- An absolute path. -/
structure DataPath where
  text : String
  absolute : text.toList.head? = some '/'
deriving DecidableEq

inductive ReportFile
  | json | html | pdf
deriving DecidableEq

def ReportFile.name : ReportFile → String
  | .json => "report.json"
  | .html => "report.html"
  | .pdf => "report.pdf"

def CaptureFormat.value : CaptureFormat → String
  | .pcap => "pcap"
  | .pcapng => "pcapng"

/-- A data root, and the job that is executed. -/
structure JobPlace where
  root : DataPath
  runId : Identifier
  caseId : Identifier
deriving DecidableEq

/-- The files that the execution of a run opens below the data root: those of the job store, those of
the history, and those of `publish_report`, for the report root is the data root unless it is set
apart. Set apart, it is the same over every data root, and a path below it is among the words of an
exception. -/
inductive DataFile
  | jobs
  | job
  | capture (format : CaptureFormat)
  | status
  | statusTmp
  | cancelFlag
  | artifacts
  | artifact (file : ReportFile)
  | artifactTmp (file : ReportFile)
  | historyDirectory
  | history
  | historyTmp
  | report
  | reportTmp
  | catalog
  | catalogTmp
deriving DecidableEq

/-- Where the file is, from the data root. -/
def DataFile.relative (place : JobPlace) : DataFile → String
  | .jobs => "jobs"
  | .job => "jobs/" ++ place.runId.text
  | .capture format => "jobs/" ++ place.runId.text ++ "/capture." ++ format.value
  | .status => "jobs/" ++ place.runId.text ++ "/status.json"
  | .statusTmp => "jobs/" ++ place.runId.text ++ "/.status.json.tmp"
  | .cancelFlag => "jobs/" ++ place.runId.text ++ "/cancel.flag"
  | .artifacts => "jobs/" ++ place.runId.text ++ "/artifacts"
  | .artifact file => "jobs/" ++ place.runId.text ++ "/artifacts/" ++ file.name
  | .artifactTmp file => "jobs/" ++ place.runId.text ++ "/artifacts/." ++ file.name ++ ".tmp"
  | .historyDirectory => "ml_history"
  | .history => "ml_history/windows.jsonl"
  | .historyTmp => "ml_history/.windows.jsonl.tmp"
  | .report => place.caseId.text ++ ".report.json"
  | .reportTmp => "." ++ place.caseId.text ++ ".report.json.tmp"
  | .catalog => "catalog.json"
  | .catalogTmp => ".catalog.json.tmp"

/-- `str(root / ..)`. -/
def DataFile.path (place : JobPlace) (file : DataFile) : List Char :=
  let directory := place.root.text.toList
  let slash := if directory.getLast? = some '/' then [] else ['/']
  directory ++ slash ++ (file.relative place).toList

/-- What a name goes on after. A colon is among them for the sake of URLs. -/
def continuesName (c : Char) : Bool := isIdChar c || c = '/' || c = ':' || 128 ≤ c.toNat

/-- An absolute path begins in the text, which comes after this character: at a slash that goes on
with no name. -/
def showsPathAfter (prev : Char) : List Char → Bool
  | [] => false
  | c :: rest => (c = '/' && !continuesName prev) || showsPathAfter c rest

/-- The text shows a path of the file system. A slash within a word, as in `PCAP/PCAPNG`, shows none. -/
def showsPath (text : String) : Bool := showsPathAfter ' ' text.toList

example : showsPath "IANA TLS snapshot not found: /opt/securemail/iana" = true ∧
    showsPath "not a PCAP/PCAPNG file, see https://example.com/help" = false := by decide +kernel

/-! ## Exceptions -/

/-- `n` in hexadecimal, in so many digits. -/
def hexDigits (width n : Nat) : List Char :=
  (List.range width).reverse.map fun i => Nat.digitChar (n / 16 ^ i % 16)

/-- A character in `repr`. Which ones beyond ASCII are printable is a table of Unicode. -/
def reprChar (printable : Char → Bool) (quote c : Char) : List Char :=
  if c = quote ∨ c = '\\' then ['\\', c]
  else if c = '\n' then ['\\', 'n']
  else if c = '\r' then ['\\', 'r']
  else if c = '\t' then ['\\', 't']
  else if c.toNat < 32 ∨ c.toNat = 127 then '\\' :: 'x' :: hexDigits 2 c.toNat
  else if c.toNat < 127 ∨ printable c then [c]
  else if c.toNat < 256 then '\\' :: 'x' :: hexDigits 2 c.toNat
  else if c.toNat < 65536 then '\\' :: 'u' :: hexDigits 4 c.toNat
  else '\\' :: 'U' :: hexDigits 8 c.toNat

/-- The quotation mark of `repr`. -/
def reprQuote (text : List Char) : Char :=
  if '\'' ∈ text ∧ '"' ∉ text then '"' else '\''

/-- `repr` of a string. -/
def pyRepr (printable : Char → Bool) (text : List Char) : List Char :=
  reprQuote text :: text.flatMap (reprChar printable (reprQuote text)) ++ [reprQuote text]

/-- How a text names a file. -/
inductive Mention
  | path (file : DataFile)
  | quoted (file : DataFile)
deriving DecidableEq

/-- A file that is named without quotation marks stands apart from the word before it. -/
def spaced : Char → List (Template.Part Mention) → Bool
  | _, [] => true
  | prev, .literal text :: rest => spaced (text.getLastD prev) rest
  | prev, .hole (.path _) :: rest => !continuesName prev && spaced 'x' rest
  | _, .hole (.quoted _) :: rest => spaced '\'' rest

/-- The words of a text, which are the same over every data root, and the files it names below it.
The name of a class is an identifier, without a slash. -/
structure ErrorText where
  className : String
  parts : List (Template.Part Mention)
  isName : '/' ∉ className.toList
  isSpaced : spaced ' ' parts = true

def Mention.render (printable : Char → Bool) (place : JobPlace) : Mention → List Char
  | .path file => file.path place
  | .quoted file => pyRepr printable (file.path place)

/-- The exception as the handler sees it. -/
def ErrorText.raised (printable : Char → Bool) (place : JobPlace) (error : ErrorText) : Raised where
  text := String.ofList (Template.fill (Mention.render printable place) error.parts)
  className := error.className

/-- An exception with words of its own. -/
def plainError (className text : String) (isName : '/' ∉ className.toList) : ErrorText where
  className := className
  parts := [.literal text.toList]
  isName := isName
  isSpaced := rfl

/-- `open` of a file fails. The text is that of an `OSError`: a number, a phrase and the quoted
path. -/
def openError (className : String) (errno : Nat) (strerror : String) (file : DataFile)
    (isName : '/' ∉ className.toList) : ErrorText where
  className := className
  parts := [.literal (s!"[Errno {errno}] {strerror}: ").toList, .hole (.quoted file)]
  isName := isName
  isSpaced := rfl

/-! ## The execution -/

/-- What happens at each statement of the body, and whether the update of the handler raises. -/
structure Plan where
  /-- A request to cancel comes in before the statement. -/
  requested : Nat → Bool := fun _ => false
  raises : Nat → Option ErrorText := fun _ => none
  handlerRaises : Bool := false

/-- The record after the requests before a statement. -/
def Plan.before (plan : Plan) (k : Nat) (job : AnalysisJob) : AnalysisJob :=
  if plan.requested k then { job with cancelRequested := true } else job

/-- `_mark_cancelled`, as the next statement. -/
def markCancelled (plan : Plan) (k : Nat) (job : AnalysisJob) : AnalysisJob × Option ErrorText :=
  match plan.raises k with
  | some error => (plan.before k job, some error)
  | none => (cancelledUpdate.patch (plan.before k job), none)

/-- `_execute_stages`: the record it leaves, and what it raises. -/
def runStages (plan : Plan) : Nat → List Instr → AnalysisJob → AnalysisJob × Option ErrorText
  | _, [], job => (job, none)
  | k, i :: rest, job =>
    let job := plan.before k job
    match plan.raises k with
    | some error => (job, some error)
    | none =>
      match i with
      | .check =>
        if job.cancelRequested then markCancelled plan (k + 1) job
        else runStages plan (k + 1) rest job
      | .update u => runStages plan (k + 1) rest (u.patch job)
      | .call _ => runStages plan (k + 1) rest job

/-- `execute_capture_job`: the record it leaves. The handler may itself raise, on a record that
somebody else has made terminal, and then the record stays as it was. -/
def executeCaptureJob (printable : Char → Bool) (place : JobPlace) (plan : Plan)
    (job : AnalysisJob) : AnalysisJob :=
  if job.status ≠ .running then job
  else
    match runStages plan 0 executeStages job with
    | (job, none) => job
    | (job, some error) =>
      let u := failUpdate (error.raised printable place)
      if plan.handlerRaises || u.refuses job then job else u.patch job

/-- The exception whose text is stored. -/
def Plan.stored (plan : Plan) (job : AnalysisJob) : Option ErrorText :=
  if job.status ≠ .running ∨ plan.handlerRaises then none
  else (runStages plan 0 executeStages job).2

/-! ## What a text shows of the data root -/

/-- From which character on the text of a file depends on the data root: a path begins with a slash,
and its `repr` with a quotation mark that depends on what is quoted. -/
def Mention.reach : Mention → Nat
  | .path _ => 2
  | .quoted _ => 1

/-- Within the characters that are kept, a file is named. -/
def ErrorText.namesFile (error : ErrorText) : Bool :=
  Template.shows Mention.reach 1000 error.parts

theorem Mention.reach_pos (mention : Mention) : 0 < mention.reach := by
  cases mention with
  | path file => exact Nat.zero_lt_succ 1
  | quoted file => exact Nat.zero_lt_succ 0

section

variable {printable : Char → Bool} {place place' : JobPlace}

theorem DataFile.exists_path (place : JobPlace) (file : DataFile) :
    ∃ c rest, file.path place = '/' :: c :: rest := by
  obtain ⟨rest, hroot⟩ : ∃ rest, place.root.text.toList = '/' :: rest := by
    have habsolute := place.root.absolute
    cases hlist : place.root.text.toList with
    | nil =>
      rw [hlist] at habsolute
      cases habsolute
    | cons first rest =>
      rw [hlist] at habsolute
      obtain rfl := Option.some.inj habsolute
      exact ⟨rest, rfl⟩
  have hrelative : (file.relative place).toList ≠ [] := by
    cases file <;> simp [DataFile.relative]
  obtain ⟨c, others, hcons⟩ := List.exists_cons_of_ne_nil hrelative
  unfold DataFile.path
  dsimp only
  rw [hroot, hcons]
  cases rest with
  | nil => exact ⟨c, others, rfl⟩
  | cons second rest => exact ⟨second, _, rfl⟩

theorem Mention.reach_le_length (mention : Mention) :
    mention.reach ≤ (mention.render printable place).length := by
  cases mention with
  | path file =>
    obtain ⟨c, rest, hpath⟩ := file.exists_path place
    show 2 ≤ (file.path place).length
    rw [hpath, List.length_cons, List.length_cons]
    exact Nat.le_add_left 2 rest.length
  | quoted file => exact Nat.succ_le_succ (Nat.zero_le _)

theorem Mention.agree :
    Template.Agree Mention.reach (Mention.render printable place)
      (Mention.render printable place') := by
  refine ⟨?_, fun mention => mention.reach_le_length, fun mention => mention.reach_le_length⟩
  intro mention n hn
  cases mention with
  | path file =>
    obtain ⟨c, rest, hpath⟩ := file.exists_path place
    obtain ⟨c', rest', hpath'⟩ := file.exists_path place'
    show (file.path place).take n = (file.path place').take n
    have hn : n < 2 := hn
    rw [hpath, hpath']
    cases n with
    | zero => rfl
    | succ n =>
      obtain rfl : n = 0 := by omega
      rfl
  | quoted file =>
    have hn : n < 1 := hn
    obtain rfl : n = 0 := by omega
    rfl

/-- The text that is stored of an exception. -/
def storedText (printable : Char → Bool) (place : JobPlace) (error : ErrorText) : String :=
  Py.takeChars 1000 (error.raised printable place).message

theorem toList_storedText {error : ErrorText} {filled : List Char}
    (hfilled : Template.fill (Mention.render printable place) error.parts = filled) :
    (storedText printable place error).toList =
      (if filled = [] then error.className.toList else filled).take 1000 := by
  subst hfilled
  unfold storedText Raised.message ErrorText.raised Py.takeChars
  rw [String.toList_ofList]
  by_cases hempty : Template.fill (Mention.render printable place) error.parts = []
  · simp [hempty]
  · simp [hempty]

theorem storedText_eq_of_not_namesFile {error : ErrorText} (h : error.namesFile = false) :
    storedText printable place error = storedText printable place' error := by
  have htake : (Template.fill (Mention.render printable place) error.parts).take 1000 =
      (Template.fill (Mention.render printable place') error.parts).take 1000 :=
    Template.take_fill_eq Mention.agree h
  have hempty : Template.fill (Mention.render printable place) error.parts = [] ↔
      Template.fill (Mention.render printable place') error.parts = [] := by
    have hnil := congrArg (· = []) htake
    simpa [List.take_eq_nil_iff] using hnil
  apply String.toList_inj.mp
  rw [toList_storedText rfl, toList_storedText rfl]
  by_cases hnil : Template.fill (Mention.render printable place) error.parts = []
  · rw [if_pos hnil, if_pos (hempty.mp hnil)]
  · rw [if_neg hnil, if_neg fun hnil' => hnil (hempty.mpr hnil')]
    exact htake

theorem storedText_ne_of_namesFile {error : ErrorText}
    (hdiffer : ∀ mention : Mention, (mention.render printable place).take mention.reach ≠
      (mention.render printable place').take mention.reach) (h : error.namesFile = true) :
    storedText printable place error ≠ storedText printable place' error := by
  have hne : ∀ place, Template.fill (Mention.render printable place) error.parts ≠ [] :=
    fun place => Template.fill_ne_nil Mention.reach_pos (fun mention => mention.reach_le_length) h
  intro heq
  have hlists := congrArg String.toList heq
  rw [toList_storedText rfl, toList_storedText rfl, if_neg (hne place), if_neg (hne place')] at hlists
  exact Template.take_fill_ne Mention.agree hdiffer h hlists

end

/-! ## Two data roots that every text tells apart -/

def isQuote (c : Char) : Bool := c = '\'' || c = '"'

theorem Identifier.noQuote (runId : Identifier) : runId.text.toList.all (!isQuote ·) = true := by
  have hvalid := runId.valid
  unfold isIdentifier at hvalid
  have hchar : ∀ c, isIdChar c = true → (!isQuote c) = true := by
    intro c hc
    rw [Bool.not_eq_true', isQuote, Bool.or_eq_false_iff]
    refine ⟨?_, ?_⟩
    · rw [decide_eq_false_iff_not]
      rintro rfl
      exact absurd hc (by decide)
    · rw [decide_eq_false_iff_not]
      rintro rfl
      exact absurd hc (by decide)
  cases hlist : runId.text.toList with
  | nil => rfl
  | cons first rest =>
    rw [hlist] at hvalid
    simp only [Bool.and_eq_true] at hvalid
    rw [List.all_cons, Bool.and_eq_true]
    refine ⟨hchar first (isIdChar_of_isAsciiAlnum hvalid.1.1), ?_⟩
    rw [List.all_eq_true]
    intro c hc
    exact hchar c (List.all_eq_true.mp hvalid.1.2 c hc)

theorem DataFile.noQuote (place : JobPlace) (file : DataFile) :
    (file.relative place).toList.all (!isQuote ·) = true := by
  have hrunId := place.runId.noQuote
  have hcaseId := place.caseId.noQuote
  cases file with
  | jobs | historyDirectory | history | historyTmp | catalog | catalogTmp =>
    simp only [relative]
    decide
  | job | status | statusTmp | cancelFlag | artifacts =>
    simp [relative, hrunId]
    decide
  | capture format => cases format <;> simp [relative, hrunId, CaptureFormat.value] <;> decide
  | artifact file => cases file <;> simp [relative, hrunId, ReportFile.name] <;> decide
  | artifactTmp file => cases file <;> simp [relative, hrunId, ReportFile.name] <;> decide
  | report | reportTmp =>
    simp [relative, hcaseId]
    decide

def plainRoot : DataPath := ⟨"/a", by decide⟩

/-- A path with an apostrophe is quoted by the other mark. -/
def apostropheRoot : DataPath := ⟨"/b'", by decide⟩

theorem mentions_differ (printable : Char → Bool) (runId caseId : Identifier) (mention : Mention) :
    (mention.render printable ⟨plainRoot, runId, caseId⟩).take mention.reach ≠
      (mention.render printable ⟨apostropheRoot, runId, caseId⟩).take mention.reach := by
  have hplain : ∀ file : DataFile, file.path ⟨plainRoot, runId, caseId⟩ =
      '/' :: 'a' :: '/' :: (file.relative ⟨plainRoot, runId, caseId⟩).toList := by
    intro file
    have hroot : plainRoot.text.toList = ['/', 'a'] := by decide
    simp [DataFile.path, hroot]
  have hapostrophe : ∀ file : DataFile, file.path ⟨apostropheRoot, runId, caseId⟩ =
      '/' :: 'b' :: '\'' :: '/' :: (file.relative ⟨plainRoot, runId, caseId⟩).toList := by
    intro file
    have hroot : apostropheRoot.text.toList = ['/', 'b', '\''] := by decide
    cases file <;> simp [DataFile.path, DataFile.relative, hroot]
  cases mention with
  | path file =>
    show (file.path ⟨plainRoot, runId, caseId⟩).take 2 ≠
      (file.path ⟨apostropheRoot, runId, caseId⟩).take 2
    rw [hplain, hapostrophe]
    simp
  | quoted file =>
    have hnoQuote := List.all_eq_true.mp (file.noQuote ⟨plainRoot, runId, caseId⟩)
    have hno : ∀ c, isQuote c = true → c ∉ (file.relative ⟨plainRoot, runId, caseId⟩).toList := by
      intro c hc hmem
      have hnot := hnoQuote c hmem
      rw [hc] at hnot
      exact absurd hnot (by decide)
    have hsingle := hno '\'' (by decide)
    have hdouble := hno '"' (by decide)
    have hquote : reprQuote (file.path ⟨plainRoot, runId, caseId⟩) = '\'' := by
      rw [reprQuote, hplain, if_neg]
      rintro ⟨hmem, -⟩
      simp [hsingle] at hmem
    have hquote' : reprQuote (file.path ⟨apostropheRoot, runId, caseId⟩) = '"' := by
      rw [reprQuote, hapostrophe, if_pos]
      refine ⟨by simp, ?_⟩
      simp [hdouble]
    show [reprQuote (file.path ⟨plainRoot, runId, caseId⟩)] ≠
      [reprQuote (file.path ⟨apostropheRoot, runId, caseId⟩)]
    rw [hquote, hquote']
    decide

/-! ## Paths among the words -/

theorem showsPathAfter_append (text more : List Char) :
    ∀ prev, showsPathAfter prev (text ++ more) =
      (showsPathAfter prev text || showsPathAfter (text.getLastD prev) more) := by
  induction text with
  | nil => exact fun _ => rfl
  | cons c rest ih =>
    intro prev
    rw [List.cons_append, showsPathAfter, showsPathAfter, ih, List.getLastD_cons, Bool.or_assoc]

theorem showsPathAfter_of_no_slash {text : List Char} (h : '/' ∉ text) :
    ∀ prev, showsPathAfter prev text = false := by
  induction text with
  | nil => exact fun _ => rfl
  | cons c rest ih =>
    intro prev
    rw [List.mem_cons, not_or] at h
    obtain ⟨hne, hrest⟩ := h
    rw [showsPathAfter, ih hrest, Bool.or_false, decide_eq_false (Ne.symm hne), Bool.false_and]

/-- Within the first `n` characters a path begins among the words, or the name of a file does. -/
def namesPathAfter : Char → Nat → List (Template.Part Mention) → Bool
  | _, _, [] => false
  | prev, n, .literal text :: rest =>
    showsPathAfter prev (text.take n) || namesPathAfter (text.getLastD prev) (n - text.length) rest
  | _, n, .hole _ :: _ => decide (0 < n)

/-- Within the characters that are kept, a path of the file system is named: one of the data root's or
any other. -/
def ErrorText.namesPath (error : ErrorText) : Bool := namesPathAfter ' ' 1000 error.parts

section

variable {printable : Char → Bool} {place : JobPlace} {parts : List (Template.Part Mention)}

/-- What is cut in the middle of a text ends it. -/
theorem showsPathAfter_take_append (prev : Char) (n : Nat) (text more : List Char) :
    showsPathAfter prev ((text ++ more).take n) = (showsPathAfter prev (text.take n) ||
      showsPathAfter (text.getLastD prev) (more.take (n - text.length))) := by
  rw [List.take_append, showsPathAfter_append]
  rcases Nat.lt_or_ge n text.length with hcut | hwhole
  · rw [Nat.sub_eq_zero_of_le (Nat.le_of_lt hcut), List.take_zero]
    rfl
  · rw [List.take_of_length_le hwhole]

/-- Where no path is named none is shown, over any data root. -/
theorem not_shows_of_not_names :
    ∀ {prev : Char} {n : Nat}, namesPathAfter prev n parts = false →
      showsPathAfter prev ((Template.fill (Mention.render printable place) parts).take n) = false := by
  induction parts with
  | nil =>
    intro prev n _
    rw [Template.fill, List.take_nil]
    rfl
  | cons part rest ih =>
    intro prev n h
    cases part with
    | literal text =>
      rw [namesPathAfter, Bool.or_eq_false_iff] at h
      rw [Template.fill, showsPathAfter_take_append, h.1, ih h.2]
      rfl
    | hole mention =>
      obtain rfl : n = 0 := by simpa [namesPathAfter] using h
      rfl

/-- Where none is named no file of the data root is. -/
theorem not_namesFile_of_not_names :
    ∀ {prev : Char} {n : Nat}, namesPathAfter prev n parts = false →
      Template.shows Mention.reach n parts = false := by
  induction parts with
  | nil => exact fun _ => rfl
  | cons part rest ih =>
    intro prev n h
    cases part with
    | literal text =>
      rw [namesPathAfter, Bool.or_eq_false_iff] at h
      exact ih h.2
    | hole mention =>
      obtain rfl : n = 0 := by simpa [namesPathAfter] using h
      have hpos := mention.reach_pos
      simp only [Template.shows, decide_eq_false_iff_not]
      omega

/-- Where one is named it is shown over every data root, or a file of the data root is named: a
quotation mark that is all that is left of one shows no path, but it depends on the root. -/
theorem shows_or_namesFile_of_names :
    ∀ {prev : Char} {n : Nat}, spaced prev parts = true → namesPathAfter prev n parts = true →
      showsPathAfter prev ((Template.fill (Mention.render printable place) parts).take n) = true ∨
        Template.shows Mention.reach n parts = true := by
  induction parts with
  | nil =>
    intro prev n _ h
    cases h
  | cons part rest ih =>
    intro prev n hspaced h
    cases part with
    | literal text =>
      rw [namesPathAfter, Bool.or_eq_true] at h
      rw [Template.fill, showsPathAfter_take_append, Bool.or_eq_true, or_assoc]
      exact h.imp_right (ih hspaced)
    | hole mention =>
      have hpos : 0 < n := by simpa [namesPathAfter] using h
      obtain ⟨n, rfl⟩ := Nat.exists_eq_succ_of_ne_zero (Nat.ne_of_gt hpos)
      cases mention with
      | path file =>
        obtain ⟨c, others, hpath⟩ := file.exists_path place
        have hrender : Mention.render printable place (.path file) = '/' :: c :: others := hpath
        have hprev : continuesName prev = false := by
          rw [spaced, Bool.and_eq_true] at hspaced
          simpa using hspaced.1
        left
        rw [Template.fill, hrender, List.cons_append, List.take_succ_cons, showsPathAfter, hprev]
        rfl
      | quoted file =>
        right
        simp [Template.shows, Mention.reach]

end

/-! ## The record -/

section

variable {printable : Char → Bool} {plan : Plan}

theorem Plan.before_status (plan : Plan) (k : Nat) (job : AnalysisJob) :
    (plan.before k job).status = job.status := by
  unfold Plan.before
  split <;> rfl

/-- What raises finds the job running, and leaves it so. -/
theorem running_of_raises {rest : List Instr} :
    ∀ {k : Nat} {job job' : AnalysisJob} {error : ErrorText}, rest ∈ scripts →
      job.status = .running → runStages plan k rest job = (job', some error) →
      job'.status = .running := by
  induction rest with
  | nil =>
    intro k job job' error _ _ h
    cases h
  | cons i rest ih =>
    intro k job job' error hscript hrunning h
    have hbefore : (plan.before k job).status = .running := by
      rw [plan.before_status, hrunning]
    have hrest := mem_scripts_of_cons hscript
    unfold runStages at h
    dsimp only at h
    split at h
    · obtain ⟨rfl, -⟩ := Prod.mk.inj h
      exact hbefore
    · cases i with
      | check =>
        dsimp only at h
        split at h
        · unfold markCancelled at h
          split at h
          · obtain ⟨rfl, -⟩ := Prod.mk.inj h
            rw [plan.before_status]
            exact hbefore
          · cases h
        · exact ih hrest hbefore h
      | update u =>
        obtain ⟨-, hlast⟩ := status_of_script hscript
        cases hcase : rest with
        | nil =>
          rw [hcase] at h
          cases h
        | cons j others =>
          refine ih hrest ?_ h
          rw [JobUpdate.patch_status, hlast (by rw [hcase]; exact List.cons_ne_nil _ _)]
          exact hbefore
      | call c => exact ih hrest hbefore h

/-- The instruction writes no message. -/
def Instr.keepsMessage : Instr → Bool
  | .update u => u.errorMessage.isNone
  | .check => true
  | .call _ => true

/-- Nothing but the handler writes the message of a failure. -/
theorem errorMessage_runStages {rest : List Instr} :
    ∀ {k : Nat} {job : AnalysisJob}, rest ∈ scripts →
      (runStages plan k rest job).1.errorMessage = job.errorMessage := by
  have hnone : ∀ script ∈ scripts, script.all Instr.keepsMessage = true := by decide
  induction rest with
  | nil => exact fun _ => rfl
  | cons i rest ih =>
    intro k job hscript
    have hrest := mem_scripts_of_cons hscript
    have hbefore : (plan.before k job).errorMessage = job.errorMessage := by
      unfold Plan.before
      split <;> rfl
    unfold runStages
    dsimp only
    split
    · exact hbefore
    · cases i with
      | check =>
        dsimp only
        split
        · unfold markCancelled
          split
          · rw [← hbefore]
            unfold Plan.before
            split <;> rfl
          · rw [← hbefore]
            unfold Plan.before
            split <;> rfl
        · rw [ih hrest, hbefore]
      | update u =>
        have hu : u.errorMessage = none := by
          have hall := hnone _ hscript
          rw [List.all_cons, Bool.and_eq_true] at hall
          simpa [Instr.keepsMessage] using hall.1
        rw [ih hrest, JobUpdate.patch, hu, hbefore]
        rfl
      | call c => rw [ih hrest, hbefore]

/-- Where nothing is stored the message is as it was. -/
theorem errorMessage_of_stored_none {job : AnalysisJob} (h : plan.stored job = none)
    (place : JobPlace) :
    (executeCaptureJob printable place plan job).errorMessage = job.errorMessage := by
  have hkept := @errorMessage_runStages plan executeStages 0 job executeStages_mem_scripts
  unfold Plan.stored at h
  unfold executeCaptureJob
  by_cases hrunning : job.status = .running
  · rw [if_neg (not_not.mpr hrunning)]
    cases hrun : runStages plan 0 executeStages job with
    | mk job' raised =>
      rw [hrun] at hkept
      cases raised with
      | none => exact hkept
      | some error =>
        cases hhandler : plan.handlerRaises with
        | true => simpa using hkept
        | false => simp [hrunning, hhandler, hrun] at h
  · rw [if_pos hrunning]

/-- What is not stored does not show. -/
theorem executeCaptureJob_of_stored_none {job : AnalysisJob} (h : plan.stored job = none)
    (place place' : JobPlace) :
    executeCaptureJob printable place plan job = executeCaptureJob printable place' plan job := by
  unfold Plan.stored at h
  unfold executeCaptureJob
  by_cases hrunning : job.status = .running
  · cases hrun : runStages plan 0 executeStages job with
    | mk job' raised =>
      cases raised with
      | none => rfl
      | some error =>
        cases hhandler : plan.handlerRaises with
        | true => simp
        | false => simp [hrunning, hhandler, hrun] at h
  · simp [hrunning]

/-- What is stored is the text of the exception. -/
theorem executeCaptureJob_of_stored {job : AnalysisJob} {error : ErrorText}
    (h : plan.stored job = some error) (printable : Char → Bool) : ∃ job' : AnalysisJob, ∀ place,
      executeCaptureJob printable place plan job =
        { job' with status := .failed, errorMessage := some (storedText printable place error) } := by
  unfold Plan.stored at h
  split at h
  · cases h
  · rename_i hreached
    rw [not_or, not_not, Bool.not_eq_true] at hreached
    obtain ⟨hrunning, hhandler⟩ := hreached
    cases hrun : runStages plan 0 executeStages job with
    | mk job' raised =>
      rw [hrun] at h
      obtain rfl : raised = some error := h
      have hstill := running_of_raises executeStages_mem_scripts hrunning hrun
      refine ⟨job', ?_⟩
      intro place
      have hguard : (failUpdate (error.raised printable place)).refuses job' = false :=
        refuses_of_running hstill
      unfold executeCaptureJob
      rw [if_neg (not_not.mpr hrunning), hrun]
      dsimp only
      rw [hhandler, hguard, Bool.or_false, if_neg Bool.false_ne_true]
      rfl

/-- The record of an execution is the same over every data root exactly if the exception whose text
is stored, if there is one, names no file of the data root in what is kept of its text. -/
theorem record_same_iff (printable : Char → Bool) (runId caseId : Identifier) (plan : Plan)
    (job : AnalysisJob) :
    (∀ root root', executeCaptureJob printable ⟨root, runId, caseId⟩ plan job =
        executeCaptureJob printable ⟨root', runId, caseId⟩ plan job) ↔
      ∀ error, plan.stored job = some error → error.namesFile = false := by
  constructor
  · intro h error herror
    by_contra hnames
    rw [Bool.not_eq_false] at hnames
    obtain ⟨job', hstored⟩ := executeCaptureJob_of_stored herror printable
    have hrecords := h plainRoot apostropheRoot
    rw [hstored, hstored] at hrecords
    have htexts := congrArg AnalysisJob.errorMessage hrecords
    exact storedText_ne_of_namesFile (mentions_differ printable runId caseId) hnames
      (Option.some.inj htexts)
  · intro h root root'
    cases hstored : plan.stored job with
    | none => exact executeCaptureJob_of_stored_none hstored _ _
    | some error =>
      obtain ⟨job', hrecord⟩ := executeCaptureJob_of_stored hstored printable
      rw [hrecord, hrecord, storedText_eq_of_not_namesFile (h error hstored)]

/-- The record does not reveal where it is stored, and it shows no other path of the file system. -/
structure HidesPaths (printable : Char → Bool) (runId caseId : Identifier) (plan : Plan)
    (job : AnalysisJob) : Prop where
  sameRecord : ∀ root root', executeCaptureJob printable ⟨root, runId, caseId⟩ plan job =
    executeCaptureJob printable ⟨root', runId, caseId⟩ plan job
  noPath : ∀ root, ∀ message ∈ (executeCaptureJob printable ⟨root, runId, caseId⟩ plan
    job).errorMessage, showsPath message = false

/-- The text that is stored shows a path as the text of the exception does. -/
theorem showsPath_storedText {place : JobPlace} (error : ErrorText) :
    showsPath (storedText printable place error) = showsPathAfter ' '
      ((Template.fill (Mention.render printable place) error.parts).take 1000) := by
  rw [showsPath, toList_storedText rfl]
  split
  · rename_i hempty
    have hname : '/' ∉ error.className.toList.take 1000 := fun h =>
      error.isName (List.mem_of_mem_take h)
    rw [showsPathAfter_of_no_slash hname, hempty, List.take_nil]
    rfl
  · rfl

end

/-- The rendering has left out an artifact. -/
def missingArtifact : Plan where
  raises := fun k =>
    if k = executeStages.idxOf (.call .renderReport) then
      some (plainError "CaptureWorkflowError" "HTML and PDF artifacts are required" (by decide))
    else none

/-- The artifacts of the job cannot be written. -/
def deniedArtifact : Plan where
  raises := fun k =>
    if k = executeStages.idxOf (.call .writeReportJson) then
      some (openError "PermissionError" 13 "Permission denied" (.artifactTmp .json) (by decide))
    else none

def deniedRecord (root : DataPath) : AnalysisJob :=
  executeCaptureJob (fun _ => true) ⟨root, runIdOf tokenA, runIdOf tokenA⟩ deniedArtifact
    { status := .running, stage := .intake }

end Jobs
end SecureMail
