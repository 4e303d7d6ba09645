import SecureMail.Lib.Run
import SecureMail.Lib.Fallible
import SecureMail.Lib.Keyed
import SecureMail.Py.Value
import SecureMail.Py.Dict
import SecureMail.Starttls.Stripping
import SecureMail.Starttls.Tags
import SecureMail.Starttls.Injection
import SecureMail.Normalize.Secrets
import SecureMail.Normalize.PortBlind
import SecureMail.Normalize.Corroboration
import SecureMail.Normalize.Pipelined
import SecureMail.Normalize.ClientHello
import SecureMail.Normalize.ServerSelection
import SecureMail.Normalize.Conflicts
import SecureMail.Policy.StateGate
import SecureMail.Policy.OrderIndependence
import SecureMail.Findings.Score
import SecureMail.Jobs.Cancellation
import SecureMail.Jobs.Terminal
import SecureMail.Jobs.Survival
import SecureMail.Pki.Nesting
import SecureMail.Zeek.Annotations
import SecureMail.Jobs.StatusFile
import SecureMail.Jobs.Idempotence
import SecureMail.Ml.PastOnly
import SecureMail.Ml.HistoryStore
import SecureMail.Jobs.SharedState
import SecureMail.Reports.ForensicText
import SecureMail.Normalize.Replies
import SecureMail.Normalize.Citations
import SecureMail.Normalize.Isolation
import SecureMail.Findings.Monotone
import SecureMail.Jobs.OldestFirst
import SecureMail.Jobs.Paths
import SecureMail.Lib.Isolation
import SecureMail.Evidence.GapAccounting
import SecureMail.Starttls.EvidenceFrames
import SecureMail.Normalize.EventCap
import SecureMail.Starttls.Attribution
import SecureMail.Normalize.FlowIsolation
import SecureMail.Normalize.FrameOrder
import SecureMail.Normalize.Emission
import SecureMail.Normalize.Matching
import SecureMail.Normalize.Hostile
import SecureMail.Policy.Evaluable
import SecureMail.Lib.LongestPrefix
import SecureMail.Tls.LongestMatch
import SecureMail.Lib.Interpolation
import SecureMail.Ml.Percentile
import SecureMail.Findings.Coverage
import SecureMail.Policy.Identifiers
import SecureMail.Pki.ServiceIdentity
import SecureMail.Lib.Shift
import SecureMail.Normalize.ChainOrder
import SecureMail.Jobs.Chunking
import SecureMail.Evidence.Document
import SecureMail.Lib.Validation
import SecureMail.Reports.Assembly
import SecureMail.Findings.References
import SecureMail.Reports.Lineage
import SecureMail.Jobs.IntakeFailures
import SecureMail.Lib.Journal
import SecureMail.Zeek.EmailLog
import SecureMail.Lib.Leaders
import SecureMail.Ml.Ranking
import SecureMail.Ml.Evaluation
import SecureMail.Jobs.Downloads
import SecureMail.Reports.Queries
import SecureMail.Reports.Rendering
import SecureMail.Analysis.Pipeline
import SecureMail.Lib.SelfDelimiting
import SecureMail.Reports.JsonText
import SecureMail.Lib.Interleaving
import SecureMail.Normalize.Interleaving
import SecureMail.Normalize.CertificateInterleaving
import SecureMail.Analysis.Interleaving
import SecureMail.Analysis.Document
import SecureMail.Lib.Rounding
import SecureMail.Py.FloatArith
import SecureMail.Analysis.Totality
