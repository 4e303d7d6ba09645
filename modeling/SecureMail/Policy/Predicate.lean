import SecureMail.Policy.Pack

/-!
# Predicates over a context

A context is a tree of JSON values and a predicate reads one path of it. The answer is one of three:
a value that is missing, or whose evidence state is no basis for a judgment, makes the predicate
unusable and not false. A comparison that makes no sense raises `PolicyEngineError`, which is caught
and is unusable too. A comparison Python itself refuses, the hash of a list, is not caught.

The model keeps the two kinds of failure apart in the type of errors and not in the answers, as the
source does with its two exceptions. So what is caught and what escapes can be said of a comparison
by itself. A path that leads nowhere gives `None`, and so does a field that is `None`: neither is a
value to compare, and both are met before the operator is looked at. The loop over a list of
predicates collects the states of the unusable ones, since the check that is left has to say how far
the evidence went.
-/

namespace SecureMail
namespace Policy

open Py (Val lower isIn)

/-- The root of the tree. -/
abbrev Context := List (String × Val)

inductive PredicateTriState where
  | pass
  | fail
  | unusable
  deriving DecidableEq, Repr

/-- `_UNUSABLE_STATES`. -/
def unusableStates : List EvidenceState := [.incomplete, .conflicting, .notObservable, .indeterminate]

/-! ## Paths -/

/-- One part of a path. -/
def stepInto (current : Val) (part : String) : Val :=
  match current with
  | .dict items => Py.lookup items part
  | _ => .none

/-- `_get_path`. -/
def getPath (context : Context) (path : String) : Val :=
  (Py.splitOnChar '.' path).foldl stepInto (.dict context)

/-- `path.rsplit(".", 1)[0]`. -/
def parentPath (path : String) : String :=
  match Py.splitOnChar '.' path with
  | [] | [_] => path
  | parts => Py.join "." parts.dropLast

/-- `path.split(".", 1)[0]`. -/
def rootPath (path : String) : String := (Py.splitOnChar '.' path).headD ""

/-- `EvidenceState(raw)`, or `INDETERMINATE` for any other string. -/
def stateOf (raw : String) : EvidenceState := (EvidenceState.ofValue? raw).getD .indeterminate

/-- `_state_for_path`: the state the path names, or its sibling, or its root's. -/
def stateForPath (context : Context) (path : String) : EvidenceState :=
  match (if Py.endsWith path "evidence_state" then getPath context path else .none) with
  | .str raw => stateOf raw
  | _ =>
      match getPath context (parentPath path ++ ".evidence_state") with
      | .str sibling => stateOf sibling
      | _ =>
          match getPath context (rootPath path ++ ".evidence_state") with
          | .str rootState => stateOf rootState
          | _ => if Py.startsWith path "derived." then .inferred else .observed

/-- `_evidence_state_for_predicate`. -/
def evidenceStateForPredicate (predicate : Predicate) (context : Context) : EvidenceState :=
  let state := stateForPath context (predicate.statePath.getD predicate.path)
  match getPath context predicate.path with
  | .none => if [.observed, .verified, .inferred].contains state then .indeterminate else state
  | _ => state

/-! ## Comparison -/

/-- Membership in a set. `_normalize` returns its argument on every branch. -/
def memSet (value : Val) (items : List Val) : Result Bool :=
  if items.all Val.hashable && value.hashable then pure (items.any fun item => value.eq item)
  else throw .typeError

/-- `any(_normalize(item) in normalized for item in needles)`, on hashable elements. -/
def anyInSet : List Val → List Val → Result Bool
  | [], _ => pure false
  | needle :: rest, items => do
      if ← memSet needle items then pure true else anyInSet rest items

/-- `_contains_any`. On a text it looks for parts, whatever the case, and on a list for members. -/
def containsAny (actual : Val) (needles : List Val) : Result Bool :=
  match actual with
  | .str s =>
      let haystack := lower s
      pure (needles.any fun needle =>
        match needle with
        | .str n => isIn (lower n) haystack
        | _ => false)
  | .list items => if items.all Val.hashable then anyInSet needles items else throw .typeError
  | _ => pure false

/-- The four comparisons of integers. The last case is the one that is left; the caller passes no
other operator. -/
def compareInts (operator : PolicyOperator) (actual expected : Int) : Bool :=
  match operator with
  | .lt => actual < expected
  | .lte => actual ≤ expected
  | .gt => actual > expected
  | _ => actual ≥ expected

/-- `_compare`. A type that does not fit the operator is an error that is caught, but for a set of
what has no hash. -/
def compare (operator : PolicyOperator) (actual expected : Val) : Result Bool :=
  match operator, expected with
  | .eq, _ => pure (actual.eq expected)
  | .notEq, _ => pure (!actual.eq expected)
  | .isIn, .list items => memSet actual items
  | .isIn, _ => throw (.policyEngine "in requires a list")
  | .notIn, .list items => do pure !(← memSet actual items)
  | .notIn, _ => throw (.policyEngine "not_in requires a list")
  | .containsAny, .list needles => containsAny actual needles
  | .containsAny, _ => throw (.policyEngine "contains_any requires a list")
  | .containsNone, .list needles => do pure !(← containsAny actual needles)
  | .containsNone, _ => throw (.policyEngine "contains_none requires a list")
  | _, _ =>
      match actual, expected with
      | .int a, .int e => pure (compareInts operator a e)
      | .int _, _ => throw (.policyEngine "numeric comparison requires an integer threshold")
      | _, _ => throw (.policyEngine "numeric comparison requires an integer")

/-! ## Predicates -/

/-- The predicate's `state_path` names a state that is no basis for a judgment. -/
def gateClosed (predicate : Predicate) (context : Context) : Bool :=
  predicate.statePath.any fun path =>
    match getPath context path with
    | .str raw => (unusableStates.map EvidenceState.value).contains raw
    | _ => false

/-- `_eval_predicate`. The gate is looked at first, then the value, and the operator last. -/
def evalPredicate (predicate : Predicate) (context : Context) : Result PredicateTriState :=
  if gateClosed predicate context then pure .unusable
  else match getPath context predicate.path with
    | .none => pure .unusable
    | actual =>
        match compare predicate.operator actual predicate.value with
        | .ok matched => pure (if matched then .pass else .fail)
        | .error (.policyEngine _) => pure .unusable
        | .error e => throw e

/-- The loop of `_eval_predicates_with_unusable`, on the states of the unusable ones so far. -/
def evalLoop (context : Context) :
    List Predicate → List EvidenceState → Result (PredicateTriState × List EvidenceState)
  | [], unusable => pure (if unusable.isEmpty then (.pass, []) else (.unusable, unusable))
  | predicate :: rest, unusable => do
      match ← evalPredicate predicate context with
      | .fail => pure (.fail, [])
      | .unusable =>
          evalLoop context rest (unusable ++ [evidenceStateForPredicate predicate context])
      | .pass => evalLoop context rest unusable

/-- `_eval_predicates_with_unusable`. -/
def evalPredicatesWithUnusable (predicates : List Predicate) (context : Context) :
    Result (PredicateTriState × List EvidenceState) :=
  evalLoop context predicates []

/-- `_eval_predicates`. -/
def evalPredicates (predicates : List Predicate) (context : Context) : Result PredicateTriState := do
  pure (← evalPredicatesWithUnusable predicates context).1

/-- `_predicate_states`. -/
def predicateStates (predicates : List Predicate) (context : Context) : List EvidenceState :=
  predicates.map (evidenceStateForPredicate · context)

end Policy
end SecureMail
