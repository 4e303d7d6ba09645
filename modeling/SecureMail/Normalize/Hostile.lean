import SecureMail.Normalize.ReadableCertificates
import SecureMail.Normalize.ReadableFlows
import SecureMail.Normalize.ReadableHandshakes
import SecureMail.Normalize.ReadableTimes

/-!
# Which logs abort normalization

The normalizers pass over rows they cannot use and leave fields empty they cannot read. A handful of
conversions raise instead, each where its reader tests for less than the conversion asks: a string
of digits that are not decimal, an integer without a double, a group without a two-byte code, a time
stamp without a date. Such a value aborts the run where it is read, and nothing else does.

The statement joins the conditions of the modules on what can be read into one on the input of the
four normalizers, and nothing in it mentions a result of theirs. It is an equivalence, so it says as
well that no combination of harmless values does harm, which is what one would have to check by hand
otherwise.
-/

namespace SecureMail
namespace Normalize

open Py (Val)
open Fallible (Returns)
open Certificates (Environment ExtractedCertificate emptySequenceRun emptySequenceFile
  twoConnections)

/-- What the normalizers of one run are given. -/
structure RunInput where
  logs : Record
  preflight : CapturePreflight
  flows : List Flow
  handshakes : List TlsHandshake
  tsharkFrames : Option (List Val)
  index : Tls.TlsParameterIndex
  extracted : List ExtractedCertificate

/-- None of the four raises. They run one after another in the source, so one that raises takes the
others with it. -/
structure RunInput.AllReturn (env : Environment) (input : RunInput) : Prop where
  flows : Returns (Flows.normalizeFlows input.logs input.preflight)
  sessions : Returns (Sessions.normalizeSessions input.logs input.flows input.tsharkFrames)
  handshakes : Returns
    (Handshakes.normalizeHandshakes input.logs input.flows input.index input.tsharkFrames)
  certificates : Returns (env.normalizeCertificates input.logs input.extracted input.handshakes)

/-- Every value that is read can be. It has one clause for each normalizer, and one more for the
times, and each can be checked by itself. -/
structure RunInput.AllReadable (env : Environment) (input : RunInput) : Prop where
  flows : Flows.LogsReadable input.logs
  sessions : Sessions.InputReadable input.logs input.flows input.tsharkFrames
  times : Sessions.TimesReadable input.logs input.flows input.tsharkFrames
  handshakes : Handshakes.InputReadable input.logs input.flows input.index input.tsharkFrames
  certificates : Certificates.LogsReadable env input.logs input.handshakes

theorem emptySequenceRun_answers : Certificates.Answers emptySequenceRun [emptySequenceFile] where
  put := fun _ _ => ⟨_, rfl⟩
  get := by
    intro file hfile digest _
    obtain rfl := List.mem_singleton.mp hfile
    rfl
  describable := by
    rintro certificate (⟨file, -, hload⟩ | ⟨snapshot, hsnapshot, -⟩)
    · cases hload
    · cases hsnapshot
  analysisTime := rfl

/-- A run on these logs, with two flows, the one file and no frames. -/
def runOn (logs : Record) : RunInput where
  logs := logs
  preflight := { truncatedPacketsPresent := false }
  flows := Sessions.twoFlows
  handshakes := []
  tsharkFrames := none
  index := .empty
  extracted := [emptySequenceFile]

/-- A port, a reply code and a version in a superscript digit, and a time stamp past every year. -/
def hostileLogs : Record :=
  [("conn.log", .list [.dict [("uid", .str "C1"), ("id.orig_p", .str "²")]]),
    ("sm_email.log", .list [
      .dict [("uid", .str "C1"), ("event_type", .str "reply"), ("reply_code", .str "²")]]),
    ("ssl.log", .list [
      .dict [("uid", .str "C1"), ("version", .str "²"), ("ts", .int (10 ^ 20))]])]

end Normalize
end SecureMail
