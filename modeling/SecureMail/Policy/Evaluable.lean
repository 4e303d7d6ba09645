import SecureMail.Policy.Emission

/-!
# Predicates that can be evaluated

A comparison that makes no sense is caught, and the predicate is unusable. What is not caught is the
hash of a list: `in` and `not_in` put what they compare into a set. Of all the paths a predicate can
name one leads to a list, the commands of a session, so what raises is such a predicate on that path,
once the loop comes to it.

The argument has three steps, and each is an equivalence. `caught_compare_iff` says which
comparisons raise what is not caught. `leaves_of_buildContext` says what the allowed paths lead to
in a context that was built, place by place, so that only one of them can name a list. `Reached`
says which predicates of a list the loop comes to. None of them is about a batch; what a whole
evaluation does is put together from them in `Policy.Totality`.
-/

namespace SecureMail
namespace Policy

open Py (Val)
open Fallible (Returns returns_ok returns_pure not_returns_throw returns_bind returns_bind_pure
  returns_ite returns_mapM_option_iff returns_filterM)

/-! ## What the paths lead to -/

def commandsPath : String := "derived.observed_commands"

/-- The parts of the paths that lead to a value with a hash, under the root of each record. -/
def flowParts : List (List String) :=
  [["uid"], ["resp", "host"], ["resp", "port"], ["orig", "host"], ["orig", "port"],
    ["evidence_state"]]

def sessionParts : List (List String) :=
  [["uid"], ["protocol"], ["evidence_state"], ["explicit_upgrade", "state"],
    ["explicit_upgrade", "evidence_state"], ["implicit_tls", "correlated_protocol"],
    ["implicit_tls", "evidence_state"]]

def handshakeParts : List (List String) :=
  [["uid"], ["established"], ["resumed"], ["evidence_state"], ["visibility"],
    ["version", "selected"], ["version", "evidence_state"], ["cipher_suite", "name"],
    ["cipher_suite", "code"], ["cipher_suite", "evidence_state"], ["key_exchange", "mechanism"],
    ["key_exchange", "evidence_state"], ["key_exchange", "dh_param_size"],
    ["certificate_verify_signature", "algorithm"],
    ["certificate_verify_signature", "evidence_state"]]

def certificateParts : List (List String) :=
  [["uid"], ["chain_index"], ["role"], ["der_sha256"], ["evidence_state"],
    ["public_key_algorithm"], ["public_key_size"], ["public_key_curve"],
    ["effective_strength_bits"], ["signature_algorithm"], ["valid_at_capture_time"],
    ["valid_at_analysis_time"], ["validation", "path_valid_at_capture_time"],
    ["validation", "path_valid_at_analysis_time"], ["validation", "identity_match"]]

def derivedParts : List (List String) :=
  [["service_role"], ["forward_secrecy", "outcome"], ["forward_secrecy", "evidence_state"],
    ["transport_tls_established"]]

/-- A value has a hash at each of the places. -/
def HashableAt (places : List (List String)) (value : Val) : Prop :=
  ∀ parts ∈ places, (parts.foldl stepInto value).hashable = true

/-- The paths but that of the commands, root by root. -/
theorem allowedPaths_parts : (allowedPaths.filter (· ≠ commandsPath)).map (Py.splitOnChar '.') =
    flowParts.map ("flow" :: ·) ++ (sessionParts.map ("session" :: ·) ++
      (handshakeParts.map ("handshake" :: ·) ++ (certificateParts.map ("certificate" :: ·) ++
        derivedParts.map ("derived" :: ·)))) := by
  have hfilter : allowedPaths.filter (· ≠ commandsPath) =
      allowedPaths.take 46 ++ allowedPaths.drop 47 := by
    decide +kernel
  rw [hfilter]
  iterate 47
    refine congrArg₂ List.cons ((Py.splitOnChar_ofList '.' _).trans rfl) ?_
  rfl

theorem foldl_stepInto_none (parts : List String) : parts.foldl stepInto .none = .none := by
  induction parts with
  | nil => rfl
  | cons part rest ih => exact ih

theorem hashableAt_none (places : List (List String)) : HashableAt places .none := by
  intro parts _
  rw [foldl_stepInto_none]
  rfl

@[simp] theorem hashable_none : Val.none.hashable = true := rfl
@[simp] theorem hashable_str (s : String) : (Val.str s).hashable = true := rfl
@[simp] theorem hashable_int (n : Int) : (Val.int n).hashable = true := rfl
@[simp] theorem hashable_bool (b : Bool) : (Val.bool b).hashable = true := rfl

theorem hashable_dumpOption {α : Type} {dump : α → Val} {a : Option α}
    (h : ∀ a, (dump a).hashable = true) : (dumpOption dump a).hashable = true := by
  cases a with
  | none => rfl
  | some a => exact h a

theorem hashableAt_dumpFlow (flow : Option Flow) :
    HashableAt flowParts (dumpOption dumpFlow flow) := by
  cases flow with
  | none => exact hashableAt_none _
  | some flow =>
    simp [HashableAt, flowParts, dumpOption, dumpFlow, dumpEndpoint, dumpState, stepInto, Py.lookup,
      List.lookup_cons]

theorem hashableAt_dumpSession (session : Option EmailSession) :
    HashableAt sessionParts (dumpOption dumpSession session) := by
  cases session with
  | none => exact hashableAt_none _
  | some session =>
    cases hupgrade : session.explicitUpgrade <;> cases htls : session.implicitTls
    all_goals
      simp only [HashableAt, sessionParts, dumpSession, hupgrade, htls, dumpState, dumpOption.eq_1,
        dumpOption.eq_2]
      simp [stepInto, Py.lookup, List.lookup_cons]
      try and_intros
      all_goals exact hashable_dumpOption fun _ => rfl

theorem hashableAt_dumpHandshake (handshake : Option TlsHandshake) :
    HashableAt handshakeParts (dumpOption dumpHandshake handshake) := by
  cases handshake with
  | none => exact hashableAt_none _
  | some handshake =>
    simp [HashableAt, handshakeParts, dumpHandshake, dumpState, stepInto, Py.lookup, List.lookup_cons,
      dumpOption.eq_2]
    and_intros
    all_goals exact hashable_dumpOption fun _ => rfl

theorem hashableAt_dumpCertificate {certificate : CertificateEvidence} {facts : Val}
    (h : dumpCertificate certificate = .ok facts) : HashableAt certificateParts facts := by
  unfold dumpCertificate at h
  split at h
  · obtain rfl := Fallible.pure_eq_ok.mp h
    cases certificate.validation
    all_goals
      simp [HashableAt, certificateParts, dumpValidation, dumpState, stepInto, Py.lookup,
        List.lookup_cons, dumpOption.eq_1, dumpOption.eq_2]
      and_intros
      all_goals exact hashable_dumpOption fun _ => rfl
  · cases h

/-- The derived facts of a context, with the commands they list. -/
theorem derived_eq_ok {pack : PolicyPack} {flow : Option Flow} {session : Option EmailSession}
    {handshake : Option TlsHandshake} {facts : Val}
    (h : derived pack flow session handshake = .ok facts) :
    HashableAt derivedParts facts ∧
      ∃ commands : List String, stepInto facts "observed_commands" = .list (commands.map .str) := by
  obtain ⟨role, -, h⟩ := Fallible.bind_eq_ok.mp h
  obtain rfl := Fallible.pure_eq_ok.mp h
  refine ⟨?_, (session.map observedCommands).getD [], ?_⟩
  · cases handshake <;>
      simp [HashableAt, derivedParts, dumpState, stepInto, Py.lookup, List.lookup_cons, dumpOption]
  · simp [stepInto, Py.lookup, List.lookup_cons]

/-- Every path but that of the commands leads to a value with a hash. It is a property of built
contexts, and the reason that the type of a value has not to be looked at anywhere else. -/
structure Leaves (context : Context) : Prop where
  flow : HashableAt flowParts (Py.lookup context "flow")
  session : HashableAt sessionParts (Py.lookup context "session")
  handshake : HashableAt handshakeParts (Py.lookup context "handshake")
  certificate : HashableAt certificateParts (Py.lookup context "certificate")
  derived : HashableAt derivedParts (Py.lookup context "derived")

theorem Leaves.hashable {context : Context} (h : Leaves context) {path : String}
    (hpath : path ∈ allowedPaths) (hne : path ≠ commandsPath) :
    (getPath context path).hashable = true := by
  have hroot : ∀ {root parts}, root :: parts = Py.splitOnChar '.' path →
      getPath context path = parts.foldl stepInto (Py.lookup context root) := by
    intro root parts hparts
    rw [getPath, ← hparts]
    rfl
  have hmem : Py.splitOnChar '.' path ∈
      (allowedPaths.filter (· ≠ commandsPath)).map (Py.splitOnChar '.') :=
    List.mem_map_of_mem (List.mem_filter.mpr ⟨hpath, by simpa using hne⟩)
  simp only [allowedPaths_parts, List.mem_append, List.mem_map] at hmem
  rcases hmem with ⟨parts, hin, hparts⟩ | ⟨parts, hin, hparts⟩ | ⟨parts, hin, hparts⟩ |
    ⟨parts, hin, hparts⟩ | ⟨parts, hin, hparts⟩
  · exact hroot hparts ▸ h.flow parts hin
  · exact hroot hparts ▸ h.session parts hin
  · exact hroot hparts ▸ h.handshake parts hin
  · exact hroot hparts ▸ h.certificate parts hin
  · exact hroot hparts ▸ h.derived parts hin

theorem getPath_commandsPath (context : Context) : getPath context commandsPath =
    stepInto (Py.lookup context "derived") "observed_commands" := by
  have hparts : Py.splitOnChar '.' commandsPath = ["derived", "observed_commands"] := by
    decide +kernel
  rw [getPath, hparts]
  rfl

/-- What a built context holds. -/
theorem leaves_of_buildContext {pack : PolicyPack} {batch : EvidenceBatch} {record : PolicyRecord}
    {context : Context} (h : buildContext pack batch record = .ok context) :
    Leaves context ∧
      ∃ commands : List String, getPath context commandsPath = .list (commands.map .str) := by
  unfold buildContext at h
  obtain ⟨derivedFacts, hderived, h⟩ := Fallible.bind_eq_ok.mp h
  obtain ⟨certificateFacts, hcertificate, h⟩ := Fallible.bind_eq_ok.mp h
  obtain rfl := Fallible.pure_eq_ok.mp h
  obtain ⟨hleaves, hcommands⟩ := derived_eq_ok hderived
  refine ⟨⟨hashableAt_dumpFlow _, hashableAt_dumpSession _, hashableAt_dumpHandshake _, ?_,
    hleaves⟩, ?_⟩
  · cases hwhich : certificateFacts with
    | none => exact hashableAt_none _
    | some facts =>
      obtain ⟨certificate, hdumped⟩ : ∃ certificate, dumpCertificate certificate = .ok facts := by
        rw [hwhich] at hcertificate
        split at hcertificate
        · obtain ⟨made, hmade, hfacts⟩ := Fallible.mapM_some_eq_ok.mp hcertificate
          exact ⟨_, Option.some.inj hfacts ▸ hmade⟩
        · rename_i hother
          cases hleaf : batch.leafOf record.uid with
          | none =>
            rw [hleaf] at hcertificate
            cases Fallible.mapM_none_eq_ok.mp hcertificate
          | some certificate =>
            rw [hleaf] at hcertificate
            obtain ⟨made, hmade, hfacts⟩ := Fallible.mapM_some_eq_ok.mp hcertificate
            exact ⟨certificate, Option.some.inj hfacts ▸ hmade⟩
      exact hashableAt_dumpCertificate hdumped
  · rw [getPath_commandsPath]
    exact hcommands

/-! ## One predicate -/

/-- The predicate puts the commands into a set: it asks for membership, and its gate is open. It can
be read off the predicate, but for the gate on its state: a predicate whose state is no basis for a
judgment is unusable before the value is looked at. -/
def HashesCommands (predicate : Predicate) (context : Context) : Prop :=
  gateClosed predicate context = false ∧ predicate.path = commandsPath ∧
    (predicate.operator = .isIn ∨ predicate.operator = .notIn) ∧
      ∃ items, predicate.value = .list items

theorem hashable_of_bounded {items : List Val} (h : boundedValue (.list items) = true) :
    items.all Val.hashable = true := by
  rw [boundedValue, Bool.and_eq_true, List.all_eq_true] at h
  rw [List.all_eq_true]
  intro item hitem
  have hbounded := h.2 item hitem
  cases item with
  | str s => rfl
  | int n => rfl
  | _ => cases hbounded

theorem returns_memSet_iff {value : Val} {items : List Val}
    (hitems : items.all Val.hashable = true) :
    Returns (memSet value items) ↔ value.hashable = true := by
  unfold memSet
  rw [hitems, Bool.true_and]
  cases value.hashable with
  | true => simp [returns_pure]
  | false => simp [not_returns_throw]

theorem returns_anyInSet {needles items : List Val} (hneedles : needles.all Val.hashable = true)
    (hitems : items.all Val.hashable = true) : Returns (anyInSet needles items) := by
  induction needles with
  | nil => exact returns_pure _
  | cons needle rest ih =>
    rw [List.all_cons, Bool.and_eq_true] at hneedles
    refine returns_bind.mpr ⟨(returns_memSet_iff hitems).mpr hneedles.1, fun found _ => ?_⟩
    exact returns_ite (returns_pure _) (ih hneedles.2)

theorem hashable_commands (commands : List String) :
    (commands.map Val.str).all Val.hashable = true := by
  simp

theorem returns_containsAny {actual : Val} {needles : List Val}
    (hneedles : needles.all Val.hashable = true)
    (hactual : ∀ items, actual = .list items → items.all Val.hashable = true) :
    Returns (containsAny actual needles) := by
  unfold containsAny
  cases actual with
  | str s => exact returns_pure _
  | list items =>
    dsimp only
    rw [if_pos (hactual items rfl)]
    exact returns_anyInSet hneedles (hactual items rfl)
  | _ => exact returns_pure _

/-- A comparison returns, or it raises what is caught. -/
def Caught (x : Result Bool) : Prop := Returns x ∨ ∃ message, x = .error (.policyEngine message)

theorem caught_map {x : Result Bool} {f : Bool → Bool} :
    Caught (x >>= fun b => pure (f b)) ↔ Caught x := by
  unfold Caught
  rw [returns_bind_pure]
  cases x with
  | ok b => simp [returns_ok]
  | error e =>
    have hraise : (Except.error e >>= fun b => pure (f b) : Result Bool) = .error e := rfl
    rw [hraise]

theorem caught_memSet_iff {value : Val} {items : List Val}
    (hitems : items.all Val.hashable = true) :
    Caught (memSet value items) ↔ value.hashable = true := by
  unfold Caught
  rw [returns_memSet_iff hitems]
  unfold memSet
  rw [hitems, Bool.true_and]
  cases value.hashable with
  | true => simp
  | false =>
    simp only [Bool.false_eq_true, if_false, false_or, iff_false, not_exists]
    intro message hraise
    cases hraise

/-- **Only membership raises what is not caught**, and only of a value without a hash. The list it
is compared with has been validated with its pack, so it has a hash throughout. -/
theorem caught_compare_iff {operator : PolicyOperator} {actual expected : Val}
    (hexpected : boundedValue expected = true)
    (hactual : ∀ items, actual = .list items → items.all Val.hashable = true) :
    Caught (compare operator actual expected) ↔
      ((operator = .isIn ∨ operator = .notIn) → (∃ items, expected = .list items) →
        actual.hashable = true) := by
  have hreturns : ∀ {x : Result Bool}, Returns x → Caught x := fun h => Or.inl h
  have hraises : ∀ message, Caught (throw (.policyEngine message)) := fun message =>
    Or.inr ⟨message, rfl⟩
  cases operator with
  | isIn =>
    cases expected with
    | list items =>
      rw [compare, caught_memSet_iff (hashable_of_bounded hexpected)]
      simp
    | _ => simp [compare, hraises]
  | notIn =>
    cases expected with
    | list items =>
      rw [compare, caught_map, caught_memSet_iff (hashable_of_bounded hexpected)]
      simp
    | _ => simp [compare, hraises]
  | containsAny =>
    refine iff_of_true ?_ (by simp)
    cases expected with
    | list needles => exact hreturns (returns_containsAny (hashable_of_bounded hexpected) hactual)
    | _ => exact hraises _
  | containsNone =>
    refine iff_of_true ?_ (by simp)
    cases expected with
    | list needles =>
      exact caught_map.mpr
        (hreturns (returns_containsAny (hashable_of_bounded hexpected) hactual))
    | _ => exact hraises _
  | eq => exact iff_of_true (hreturns (returns_pure _)) (by simp)
  | notEq => exact iff_of_true (hreturns (returns_pure _)) (by simp)
  | _ =>
    refine iff_of_true ?_ (by simp)
    cases actual with
    | int a =>
      cases expected with
      | int e => exact hreturns (returns_pure _)
      | _ => exact hraises _
    | _ => exact hraises _

theorem returns_evalPredicate_iff {predicate : Predicate} {context : Context}
    (hlists : ∀ items, getPath context predicate.path = .list items →
      items.all Val.hashable = true) :
    Returns (evalPredicate predicate context) ↔
      (gateClosed predicate context = false →
        (predicate.operator = .isIn ∨ predicate.operator = .notIn) →
          (∃ items, predicate.value = .list items) →
            (getPath context predicate.path).hashable = true) := by
  unfold evalPredicate
  cases gateClosed predicate context with
  | true => simp [returns_pure]
  | false =>
    simp only [Bool.false_eq_true, if_false, true_implies]
    rw [← caught_compare_iff predicate.value_bounded hlists]
    cases hactual : getPath context predicate.path with
    | none =>
      refine iff_of_true (returns_pure _) ((caught_compare_iff predicate.value_bounded ?_).mpr ?_)
      · intro items hitems
        cases hitems
      · exact fun _ _ => rfl
    | _ =>
      unfold Caught
      dsimp only
      generalize compare predicate.operator _ predicate.value = compared
      cases compared with
      | ok matched => simp [returns_pure, returns_ok]
      | error e =>
        cases e with
        | policyEngine message => simp [returns_pure]
        | _ => simp [not_returns_throw, Fallible.not_returns_error]

/-- **A predicate of a rule raises where it puts the commands into a set**, and nowhere else. -/
theorem returns_evalPredicate_iff_of_built {pack : PolicyPack} {batch : EvidenceBatch}
    {record : PolicyRecord} {context : Context} (h : buildContext pack batch record = .ok context)
    {predicate : Predicate} :
    Returns (evalPredicate predicate context) ↔ ¬ HashesCommands predicate context := by
  obtain ⟨hleaves, commands, hcommands⟩ := leaves_of_buildContext h
  have hlists : ∀ items, getPath context predicate.path = .list items →
      items.all Val.hashable = true := by
    intro items hitems
    by_cases hpath : predicate.path = commandsPath
    · rw [hpath, hcommands] at hitems
      obtain rfl := Val.list.inj hitems
      exact hashable_commands commands
    · have hhash := hleaves.hashable predicate.path_known hpath
      rw [hitems] at hhash
      cases hhash
  rw [returns_evalPredicate_iff hlists]
  constructor
  · rintro hreturns ⟨hgate, hpath, hoperator, hvalue⟩
    have hhash := hreturns hgate hoperator hvalue
    rw [hpath, hcommands] at hhash
    cases hhash
  · intro hnot hgate hoperator hvalue
    apply hleaves.hashable predicate.path_known
    intro hpath
    exact hnot ⟨hgate, hpath, hoperator, hvalue⟩

/-! ## A list of predicates -/

/-- The loop comes to a predicate if none before it fails. The loop goes on after a predicate that
is unusable, since a later one may still fail, and ends at the first that fails. -/
def Reached (predicates : List Predicate) (context : Context) (predicate : Predicate) : Prop :=
  ∃ before after, predicates = before ++ predicate :: after ∧
    ∀ earlier ∈ before, evalPredicate earlier context ≠ .ok .fail

theorem reached_cons {first : Predicate} {rest : List Predicate} {context : Context}
    {predicate : Predicate} :
    Reached (first :: rest) context predicate ↔ predicate = first ∨
      evalPredicate first context ≠ .ok .fail ∧ Reached rest context predicate := by
  constructor
  · rintro ⟨before, after, hsplit, hbefore⟩
    cases before with
    | nil =>
      obtain ⟨rfl, -⟩ := List.cons.inj hsplit
      exact Or.inl rfl
    | cons first' before =>
      obtain ⟨rfl, hrest⟩ := List.cons.inj hsplit
      rw [List.forall_mem_cons] at hbefore
      exact Or.inr ⟨hbefore.1, before, after, hrest, hbefore.2⟩
  · rintro (rfl | ⟨hfirst, before, after, rfl, hbefore⟩)
    · exact ⟨[], rest, rfl, by simp⟩
    · refine ⟨first :: before, after, rfl, ?_⟩
      rw [List.forall_mem_cons]
      exact ⟨hfirst, hbefore⟩

/-- **The loop returns if each predicate it comes to does.** A predicate that raises does no harm
behind one that fails. -/
theorem returns_evalLoop_iff {context : Context} {predicates : List Predicate}
    {unusable : List EvidenceState} :
    Returns (evalLoop context predicates unusable) ↔
      ∀ predicate, Reached predicates context predicate →
        Returns (evalPredicate predicate context) := by
  induction predicates generalizing unusable with
  | nil =>
    refine iff_of_true (returns_pure _) ?_
    rintro predicate ⟨before, after, hsplit, -⟩
    simp at hsplit
  | cons first rest ih =>
    rw [evalLoop, returns_bind]
    simp only [reached_cons, or_imp, forall_and, forall_eq]
    refine and_congr_right fun hfirst => ?_
    obtain ⟨state, hstate⟩ := hfirst
    rw [hstate]
    simp only [Except.ok.injEq, forall_eq']
    cases state with
    | fail => simp [returns_pure]
    | unusable => simpa using ih
    | pass => simpa using ih

theorem returns_evalPredicatesWithUnusable_iff {context : Context} {predicates : List Predicate} :
    Returns (evalPredicatesWithUnusable predicates context) ↔
      ∀ predicate, Reached predicates context predicate →
        Returns (evalPredicate predicate context) :=
  returns_evalLoop_iff

/-! ## The context of a record -/

/-- What a role is decided on: there are no derived facts in it, and so no list. -/
theorem leaves_of_role (flow : Flow) (session : EmailSession) :
    Leaves [("flow", dumpFlow flow), ("session", dumpSession session), ("handshake", .none),
      ("certificate", .none), ("derived", .dict [])] where
  flow := hashableAt_dumpFlow (some flow)
  session := hashableAt_dumpSession (some session)
  handshake := hashableAt_none _
  certificate := hashableAt_none _
  derived := by
    show HashableAt derivedParts (.dict [])
    unfold HashableAt
    decide

theorem returns_serviceRole (pack : PolicyPack) (flow : Option Flow)
    (session : Option EmailSession) : Returns (serviceRole pack flow session) := by
  unfold serviceRole
  cases session with
  | none => exact returns_pure _
  | some session =>
    cases flow with
    | none => exact returns_pure _
    | some flow =>
      have hleaves := leaves_of_role flow session
      dsimp only
      refine returns_bind.mpr ⟨returns_filterM fun role _ => ?_, fun matched _ => ?_⟩
      · refine returns_bind_pure.mpr (returns_bind_pure.mpr ?_)
        refine returns_evalPredicatesWithUnusable_iff.mpr fun predicate _ => ?_
        have hhash : (getPath [("flow", dumpFlow flow), ("session", dumpSession session),
            ("handshake", .none), ("certificate", .none), ("derived", .dict [])]
              predicate.path).hashable = true := by
          by_cases hpath : predicate.path = commandsPath
          · rw [hpath, getPath_commandsPath]
            rfl
          · exact hleaves.hashable predicate.path_known hpath
        refine (returns_evalPredicate_iff ?_).mpr fun _ _ _ => hhash
        intro items hitems
        rw [hitems] at hhash
        cases hhash
      · split
        · exact returns_pure _
        · exact returns_pure _
        · exact returns_pure _

/-- **A context is built** where the certificates it dumps have dates that are in range. The dates
are the one thing in a record whose dump can fail. -/
theorem returns_buildContext {pack : PolicyPack} {batch : EvidenceBatch} {record : PolicyRecord}
    (hdates : ∀ certificate, record = .certificate certificate ∨ certificate ∈ batch.certificates →
      serializable certificate.notBefore = true ∧ serializable certificate.notAfter = true) :
    Returns (buildContext pack batch record) := by
  have hdump : ∀ certificate,
      record = .certificate certificate ∨ certificate ∈ batch.certificates →
        Returns (dumpCertificate certificate) := by
    intro certificate hcertificate
    obtain ⟨hbefore, hafter⟩ := hdates certificate hcertificate
    unfold dumpCertificate
    rw [hbefore, hafter]
    exact returns_pure _
  unfold buildContext
  refine returns_bind.mpr ⟨returns_bind_pure.mpr (returns_serviceRole _ _ _), fun facts _ => ?_⟩
  refine returns_bind_pure.mpr (returns_mapM_option_iff.mpr fun certificate hcertificate => ?_)
  refine hdump certificate ?_
  split at hcertificate
  · obtain rfl := Option.some.inj hcertificate
    exact Or.inl rfl
  · right
    have hleaf := List.mem_of_mem_head? hcertificate
    rw [List.mem_insertionSort, List.mem_filter, List.mem_filter] at hleaf
    exact hleaf.1.1

end Policy
end SecureMail
