import SecureMail.Analysis.Pipeline
import SecureMail.Normalize.CertificateInterleaving

/-!
# The document does not depend on the interleaving

Zeek writes the rows of all connections into the same logs as they come. Two captures that differ in
nothing but how their connections are interleaved there have the same document, as long as no log is
cut, the rows of the mail log and the mail frames have finite times and the certificates stay below
their limit.

The three assumptions are where the order does show. A log that is cut keeps its first rows,
whosever they are; a row without a time is placed by a counter that all connections share; and the
limit on certificates is one for the run. Below them the theorem is one of two whole runs, through
every normalizer, the policy engine, the score and the digest of the document, and an exception of
the one is an exception of the other.
-/

namespace SecureMail
namespace Analysis

open Fallible (bind_eq_ok)
open Normalize (Record Reinterleaved WithinLimits)
open Normalize.Flows (allRows)
open Normalize.Sessions (SessionInput finiteTime recordsOf tsharkProtocol maxFrames)
open Py (Val)

/-- The rows of the mail log have finite times, and so have the mail frames of TShark. -/
structure Timed (logs : Record) (tshark : Option (Except AnalyzerError (List Val))) : Prop where
  rows : ∀ row ∈ allRows logs "sm_email.log", finiteTime (row.get "ts") = true
  frames_le : ∀ frames, tshark = some (.ok frames) → frames.length ≤ maxFrames
  frames : ∀ frames, tshark = some (.ok frames) → ∀ frame ∈ recordsOf (.list frames),
    (tsharkProtocol frame).isSome = true → finiteTime (frame.get "frame.time_epoch") = true

variable {logs logs' : Record} {tshark : Option (Except AnalyzerError (List Val))}

theorem Timed.reinterleaved (h : Timed logs tshark) (hlogs : Reinterleaved logs logs') :
    Timed logs' tshark where
  rows row hrow :=
    h.rows row ((hlogs.connections "sm_email.log" (by decide)).perm.mem_iff.mpr hrow)
  frames_le := h.frames_le
  frames := h.frames

/-- The frames a run goes by are none or those of TShark. -/
theorem tsharkFrames_cases {needed : Bool} {frames : Option (List Val)}
    (h : tsharkFrames tshark needed = .ok frames) :
    frames = none ∨ ∃ answered, frames = some answered ∧ tshark = some (.ok answered) := by
  cases tshark with
  | none =>
    obtain rfl := Fallible.pure_eq_ok.mp h
    exact Or.inl rfl
  | some answer =>
    cases needed with
    | false =>
      obtain rfl := Fallible.pure_eq_ok.mp h
      exact Or.inl rfl
    | true =>
      cases answer with
      | error e => cases h
      | ok answered =>
        obtain rfl := Fallible.pure_eq_ok.mp h
        exact Or.inr ⟨answered, rfl, rfl⟩

theorem Timed.admissible (h : Timed logs tshark) (hlimits : WithinLimits logs)
    {frames : Option (List Val)}
    (hcases : frames = none ∨ ∃ answered, frames = some answered ∧ tshark = some (.ok answered)) :
    SessionInput.Admissible ⟨logs, frames⟩ := by
  refine ⟨hlimits _ (by decide), hlimits _ (by decide), ?_, h.rows, ?_⟩
  · rcases hcases with rfl | ⟨answered, rfl, htshark⟩
    · exact Nat.zero_le _
    · exact h.frames_le answered htshark
  · rcases hcases with rfl | ⟨answered, rfl, htshark⟩
    · exact fun frame hframe => absurd hframe List.not_mem_nil
    · exact h.frames answered htshark

theorem needsTsharkCorroboration_reinterleaved (h : Reinterleaved logs logs')
    (hlimits : WithinLimits logs) (hlimits' : WithinLimits logs') (sessions : List EmailSession)
    (flows : List Flow) :
    needsTsharkCorroboration sessions flows logs' = needsTsharkCorroboration sessions flows logs := by
  unfold needsTsharkCorroboration
  rw [hlimits.bounded (by decide), hlimits'.bounded (by decide),
    ((h.connections "ssl.log" (by decide)).perm.any_eq)]

theorem normalizeEvidence_reinterleaved {tlsParameters : Tls.TlsParameterIndex}
    {env : Normalize.Certificates.Environment} {preflight : CapturePreflight}
    {zeek : ZeekRunResult} {batch : Policy.EvidenceBatch} (h : Reinterleaved zeek.logs logs')
    (hlimits : WithinLimits zeek.logs) (hlimits' : WithinLimits logs') (htimed : Timed zeek.logs tshark)
    (hroom : batch.certificates.length < Normalize.Certificates.maxCertificatesPerRun)
    (hrun : normalizeEvidence tlsParameters env preflight zeek tshark = .ok batch) :
    normalizeEvidence tlsParameters env preflight { zeek with logs := logs' } tshark =
      .ok batch := by
  obtain ⟨first, frames, hflows, hfirst, hframes, hsessions, hhandshakes, hcertificates⟩ :=
    normalizeEvidence_eq_ok.mp hrun
  have htimed' := htimed.reinterleaved h
  refine normalizeEvidence_eq_ok.mpr ⟨first, frames, ?_, ?_, ?_, ?_, ?_, ?_⟩
  · exact Normalize.Flows.normalizeFlows_reinterleaved h hlimits.flows hlimits'.flows hflows
  · exact Normalize.Sessions.normalizeSessions_reinterleaved h
      (htimed.admissible hlimits (Or.inl rfl)) (htimed'.admissible hlimits' (Or.inl rfl)) hfirst
  · rw [needsTsharkCorroboration_reinterleaved h hlimits hlimits']
    exact hframes
  · have hcases := tsharkFrames_cases hframes
    exact Normalize.Sessions.normalizeSessions_reinterleaved h (htimed.admissible hlimits hcases)
      (htimed'.admissible hlimits' hcases) hsessions
  · exact Normalize.Handshakes.normalizeHandshakes_reinterleaved h hlimits hlimits' hhandshakes
  · exact Normalize.Certificates.normalizeCertificates_reinterleaved h hlimits hlimits' hroom
      hcertificates

theorem runAnalysis_reinterleaved {tools : Tools} {request : AnalyzeRequest}
    {capture : Option (List UInt8)} {preflight : Except AnalyzerError CapturePreflight}
    {zeek : ZeekRunResult} {document : EvidenceDocument} (h : Reinterleaved zeek.logs logs')
    (hlimits : WithinLimits zeek.logs) (hlimits' : WithinLimits logs') (htimed : Timed zeek.logs tshark)
    (hroom : document.certificates.length < Normalize.Certificates.maxCertificatesPerRun)
    (hrun : runAnalysis tools request capture ⟨preflight, .ok zeek, tshark⟩ = .ok document) :
    runAnalysis tools request capture ⟨preflight, .ok { zeek with logs := logs' }, tshark⟩ =
      .ok document := by
  obtain ⟨⟨bytes, analysisTime, warningWindow, capinfos, answered, batch, hread, htime, hwindow,
    hpreflight, hzeek, hbatch⟩, hconclude⟩ := runAnalysis_eq_ok.mp hrun
  obtain rfl : zeek = answered := Except.ok.inj hzeek
  have hcertificates : batch.certificates = document.certificates :=
    congrArg Policy.EvidenceBatch.certificates (concludeAnalysis_eq_ok.mp hconclude).1.symm
  have hbatch' := normalizeEvidence_reinterleaved h hlimits hlimits' htimed
    (hcertificates ▸ hroom) hbatch
  exact runAnalysis_eq_ok.mpr ⟨⟨bytes, analysisTime, warningWindow, capinfos, _, batch, hread, htime,
    hwindow, hpreflight, rfl, hbatch'⟩, hconclude⟩

/-- **The document does not depend on the interleaving.** Its hypotheses are on the logs and the
limits, and both runs have the same exception if they have one. -/
theorem document_reinterleaved {tools : Tools} {request : AnalyzeRequest}
    {capture : Option (List UInt8)} {preflight : Except AnalyzerError CapturePreflight}
    {tshark : Option (Except AnalyzerError (List Val))} {zeek : ZeekRunResult} {logs' : Record}
    {document : EvidenceDocument} (h : Reinterleaved zeek.logs logs')
    (hlimits : WithinLimits zeek.logs) (hlimits' : WithinLimits logs') (htimed : Timed zeek.logs tshark)
    (hroom : document.certificates.length < Normalize.Certificates.maxCertificatesPerRun) :
    runAnalysis tools request capture ⟨preflight, .ok zeek, tshark⟩ = .ok document ↔
      runAnalysis tools request capture ⟨preflight, .ok { zeek with logs := logs' }, tshark⟩ =
        .ok document := by
  constructor
  · exact runAnalysis_reinterleaved h hlimits hlimits' htimed hroom
  · exact runAnalysis_reinterleaved h.symm hlimits' hlimits (htimed.reinterleaved h) hroom

/-! ## Two mail connections -/

/-- The bytes of a capture, its configuration and the id text of its one check differ in length. -/
def twoMailSha256 (bytes : List UInt8) : Sha256Hex :=
  match bytes.length with
  | 4 => ⟨"531d04aaf63e526de83a4f74863b20df18e916bd7d0bf67cef890f4e063ed777", by decide +kernel⟩
  | 645 => ⟨"0076db888c122079826fca471f992cbc5d5ced2b2e62b7b8ee597e0adee363d8", by decide +kernel⟩
  | _ => ⟨"a10ebb070f15c341176fc3460fa541cdbf3da1ba09f5a56eeda3042471b0d951", by decide +kernel⟩

/-- No certificate is loaded in this run. -/
def twoMailTools : Tools where
  lib := Normalize.Certificates.emptySequenceRun.lib
  codec := { ipAddress := fun _ => none, idna := some }
  sha1 := fun _ => ""
  sha256 := twoMailSha256
  artifactStore := Normalize.Certificates.emptySequenceRun.store
  tlsParameters := .empty
  tlsParametersDigest := emptyDigest
  policyPack := Policy.tls10Pack
  policyPackDigest := "bbbbbbbbbbbbbbbbbbbbbbbbbbbbbbbbbbbbbbbbbbbbbbbbbbbbbbbbbbbbbbbb"
  now := Policy.analysisTime

def mailRow (uid host : String) : Val :=
  .dict [("uid", .str uid), ("id.orig_h", .str host), ("id.orig_p", .int 49152),
    ("id.resp_h", .str "192.0.2.25"), ("id.resp_p", .int 25), ("proto", .str "tcp"),
    ("history", .str "ShADadFf")]

def ehloRow (uid : String) : Record :=
  [("uid", .str uid), ("protocol", .str "smtp"), ("event_type", .str "request"),
    ("command", .str "EHLO"), ("ts", .int 2)]

def quitRow (uid : String) : Record :=
  [("uid", .str uid), ("protocol", .str "smtp"), ("event_type", .str "request"),
    ("command", .str "QUIT"), ("ts", .int 3)]

/-- Two mail connections, the first with TLS 1.2, and their mail rows in some order. -/
def twoMailLogs (rows : List Record) : Record :=
  [("conn.log", .list [mailRow "C1" "192.0.2.10", mailRow "C2" "192.0.2.11"]),
   ("sm_email.log", .list (rows.map Val.dict)),
   ("ssl.log", .list [.dict [("uid", .str "C1"), ("version", .str "TLSv12"),
     ("ssl_history", .str "Cs"), ("established", .bool true)]])]

def twoMailZeek (rows : List Record) : ZeekRunResult where
  logs := twoMailLogs rows
  analyzerBundleDigest := emptyDigest

def twoMailRequest : AnalyzeRequest := { capturePath := "capture.pcapng" }

def twoMailRun (zeek : ZeekRunResult) : Outcome EvidenceDocument :=
  runAnalysis twoMailTools twoMailRequest (some Jobs.pcapngMagic)
    ⟨.ok { truncatedPacketsPresent := false }, .ok zeek, none⟩

/-- The connections one after the other. -/
def apart : List Record := [ehloRow "C1", quitRow "C1", ehloRow "C2", quitRow "C2"]

/-- The second greets before the first leaves. -/
def crossed : List Record := [ehloRow "C1", ehloRow "C2", quitRow "C1", quitRow "C2"]

theorem reinterleaved_crossed : Reinterleaved (twoMailLogs apart) (twoMailLogs crossed) where
  connections := by
    have hdisjoint : ∀ uid, ¬(Normalize.Sessions.rowIsOf uid (quitRow "C1") = true ∧
        Normalize.Sessions.rowIsOf uid (ehloRow "C2") = true) := by
      intro uid
      unfold Normalize.Sessions.rowIsOf
      rw [decide_eq_true_iff, decide_eq_true_iff]
      rintro ⟨hfirst, hsecond⟩
      exact absurd (hfirst.trans hsecond.symm) (by decide)
    intro name hname
    simp only [Normalize.connectionLogs, List.mem_cons, List.not_mem_nil, or_false] at hname
    rcases hname with rfl | rfl | rfl | rfl
    · exact .refl _ _
    · exact .refl _ _
    · exact .swap hdisjoint [ehloRow "C1"] [quitRow "C2"]
    · exact .refl _ _
  files := by
    intro name hname
    simp only [Normalize.fileLogs, List.mem_cons, List.not_mem_nil, or_false] at hname
    rcases hname with rfl | rfl
    · exact .refl _ _
    · exact .refl _ _
  loss := rfl

theorem document_reinterleaved_crossed :
    ∃ document, twoMailRun (twoMailZeek apart) = .ok document ∧
      document.sessions.map (·.uid) = ["C1", "C2"] ∧ document.policyChecks.length = 1 ∧
      twoMailRun (twoMailZeek crossed) = .ok document := by
  have hparts : (twoMailRun (twoMailZeek apart)).toOption.map (fun document =>
      (document.sessions.map (·.uid), document.policyChecks.length, document.certificates.length)) =
        some (["C1", "C2"], 1, 0) := by decide +kernel
  have hlimits : WithinLimits (twoMailLogs apart) := by
    unfold WithinLimits
    decide +kernel
  have hlimits' : WithinLimits (twoMailLogs crossed) := by
    unfold WithinLimits
    decide +kernel
  have htimed : Timed (twoMailLogs apart) none :=
    ⟨by decide +kernel, fun frames h => absurd h (by simp), fun frames h => absurd h (by simp)⟩
  cases hrun : twoMailRun (twoMailZeek apart) with
  | error e =>
    rw [hrun] at hparts
    cases hparts
  | ok document =>
    rw [hrun] at hparts
    simp only [Except.toOption, Option.map_some, Option.some.injEq, Prod.mk.injEq] at hparts
    obtain ⟨hsessions, hchecks, hcertificates⟩ := hparts
    refine ⟨document, rfl, hsessions, hchecks, ?_⟩
    have hroom : document.certificates.length < Normalize.Certificates.maxCertificatesPerRun := by
      rw [hcertificates]
      decide
    have hboth : twoMailRun (twoMailZeek apart) = .ok document ↔
        twoMailRun { twoMailZeek apart with logs := twoMailLogs crossed } = .ok document :=
      document_reinterleaved reinterleaved_crossed hlimits hlimits' htimed hroom
    exact hboth.mp hrun

end Analysis
end SecureMail
