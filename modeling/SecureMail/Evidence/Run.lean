/-!
# The shared evidence vocabulary

`EvidenceState` is the one visibility state every evidence field carries: a value was observed, was
verified or inferred from others, or cannot be relied on, in one of four ways. The policy engine
decides by it before it looks at a value.

`Error` is what the analysis code raises: the built-in exceptions a conversion can raise on hostile
input, a pydantic validation error naming the model and the field that refused its value, and the
policy engine's own. They are kept apart because the code does: a handler for one lets the others
through, and some of what goes wrong in the engine is a handler that does not name the one raised. A
function of
the source that can raise is a function into `Result`, and one that cannot is a plain function, so
the signature alone says where an analysis can stop.
-/

namespace SecureMail

inductive EvidenceState where
  | observed
  | verified
  | inferred
  | incomplete
  | conflicting
  | notObservable
  | indeterminate
  deriving DecidableEq, Repr

def EvidenceState.value : EvidenceState → String
  | .observed => "observed"
  | .verified => "verified"
  | .inferred => "inferred"
  | .incomplete => "incomplete"
  | .conflicting => "conflicting"
  | .notObservable => "not_observable"
  | .indeterminate => "indeterminate"

def EvidenceState.all : List EvidenceState :=
  [.observed, .verified, .inferred, .incomplete, .conflicting, .notObservable, .indeterminate]

/-- `EvidenceState(raw)`; `none` where the enumeration raises `ValueError`. -/
def EvidenceState.ofValue? (raw : String) : Option EvidenceState :=
  EvidenceState.all.find? (·.value = raw)

@[simp] theorem EvidenceState.ofValue?_value (s : EvidenceState) :
    EvidenceState.ofValue? s.value = some s := by
  cases s <;> rfl

/-- Octets are compared by their values. The instance has a name so that every module that compares
capture bytes compares them in the same way. -/
instance instLawfulBEqOctets : LawfulBEq (List UInt8) := inferInstance

inductive PolicyProfile where
  | ietfCurrent
  | nistFederal
  | historicalAtCapture
  deriving DecidableEq, Repr

def PolicyProfile.value : PolicyProfile → String
  | .ietfCurrent => "ietf_current"
  | .nistFederal => "nist_federal"
  | .historicalAtCapture => "historical_at_capture"

inductive Error where
  | valueError
  | overflowError
  | typeError
  | indexError
  | osError
  | certificateStore (message : String)
  | validation (model field : String)
  | policyEngine (message : String)
  deriving DecidableEq, Repr

abbrev Result := Except Error

end SecureMail
