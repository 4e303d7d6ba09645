import SecureMail.Normalize.Handshakes
import SecureMail.Tls.ForwardSecrecy
import SecureMail.Tls.Token

/-!
# What the server selected, and forward secrecy

A ClientHello lists what a client would take, and a row of `ssl.log` has fields for both sides. A
verdict on forward secrecy has to rest on what the server chose. The chain from the row to the
verdict has four links, and each has its lemma here: the history decides whether a server answered
at all, the version is kept only if it did, the key exchange is classified only for a version that
was kept, and the assessment reads nothing else.

`ForwardSecrecyCase` is what the assessment can answer, and `SoundVerdict` is the chain end to end.

The condition on the history is on the row itself and is read letter by letter, without the reader
(`serverAnswers_iff`). Token prefixes have a meaning of their own too, words at the front of a list
of words, so that the soundness of a verdict can be checked against a cipher name without the table.
-/

namespace SecureMail
namespace Normalize

open Py (isIn)
open Tls (assessForwardSecrecy kxToken olderVersions)
open Handshakes (hasServerHello historyOf)

/-! ## The law -/

/-- The row's history was read, and has the letter of a ServerHello or of a retry request. -/
def ServerAnswers (row : Record) (h : TlsHandshake) : Prop :=
  row.get "ssl_history" = .str h.sslHistory ∧
    ('s' ∈ h.sslHistory.toList ∨ 'j' ∈ h.sslHistory.toList)

/-- TLS 1.3 was selected, and the row has the server's key share or a curve. -/
def SelectedShare (row : Record) (h : TlsHandshake) : Prop :=
  h.version.selected = some "TLSv13" ∧
    ((∃ group, asInt (row.get "server_key_share_group") = .ok (some group)) ∨
      ∃ curve, Handshakes.asStr (row.get "curve") Handshakes.maxNameLen = some curve)

/-- TLS 1.2 or older was selected, and a suite whose token is one of these. -/
def SelectedToken (tokens : List String) (h : TlsHandshake) : Prop :=
  ∃ version suite token, h.version.selected = some version ∧ version ∈ olderVersions ∧
    h.cipherSuite.name = some suite ∧ kxToken suite = some token ∧ token ∈ tokens

/-- A verdict rests on what the server selected; where no server answered there is no selection, and
no verdict. -/
structure SoundVerdict (row : Record) (flow : Option Flow) (h : TlsHandshake) : Prop where
  present : (assessForwardSecrecy h).outcome = .present →
    ServerAnswers row h ∧ (∀ f ∈ flow, f.reconstructionQuality ≠ .conflicting) ∧
      (SelectedShare row h ∨ SelectedToken ["ECDHE", "DHE"] h)
  absent : (assessForwardSecrecy h).outcome = .absent → SelectedToken ["RSA", "DH", "ECDH"] h
  unanswered : ¬ ServerAnswers row h →
    h.version.selected = none ∧ h.cipherSuite.name = none ∧ h.keyExchange.mechanism = none ∧
      (assessForwardSecrecy h).outcome = .indeterminate

/-! ## The history -/

theorem hasServerHello_iff {history : String} :
    hasServerHello history = true ↔ 's' ∈ history.toList ∨ 'j' ∈ history.toList := by
  rw [hasServerHello, Bool.or_eq_true, isIn, isIn, decide_eq_true_eq, decide_eq_true_eq]
  exact or_congr (List.singleton_infix_iff 's' _) (List.singleton_infix_iff 'j' _)

/-- A history with any letter in it is the row's own. -/
theorem historyOf_eq {row : Record} (h : historyOf row ≠ "") :
    row.get "ssl_history" = .str (historyOf row) := by
  unfold historyOf at h ⊢
  cases hread : Handshakes.asStr (row.get "ssl_history") Handshakes.maxHistoryLen with
  | none =>
    rw [hread] at h
    exact absurd rfl h
  | some history => exact Handshakes.eq_str_of_asStr hread

theorem serverAnswers_iff {row : Record} {h : TlsHandshake}
    (hhistory : h.sslHistory = historyOf row) :
    ServerAnswers row h ↔ hasServerHello (historyOf row) = true := by
  rw [ServerAnswers, hasServerHello_iff, hhistory]
  constructor
  · exact fun hanswers => hanswers.2
  · intro hletter
    refine ⟨historyOf_eq ?_, hletter⟩
    rintro hempty
    rw [hempty] at hletter
    exact absurd hletter (by simp)

/-! ## The version and the suite -/

theorem selected_of_serverHello {row : Record} {history : String} {version : TlsVersionEvidence}
    (h : Handshakes.resolveSelectedVersion row history = .ok version)
    (hselected : version.selected ≠ none) : hasServerHello history = true := by
  obtain ⟨clientVersions, _, h⟩ := Fallible.bind_eq_ok.mp h
  obtain ⟨serverSupported, _, h⟩ := Fallible.bind_eq_ok.mp h
  obtain ⟨serverVersion, _, h⟩ := Fallible.bind_eq_ok.mp h
  obtain ⟨zeekVersion, _, h⟩ := Fallible.bind_eq_ok.mp h
  cases hserver : hasServerHello history with
  | true => rfl
  | false =>
    simp only [hserver, Bool.and_false, Bool.false_and, Bool.false_eq_true, if_false] at h
    obtain rfl := Fallible.pure_eq_ok.mp h
    exact absurd rfl hselected

theorem cipherEvidence_name {row : Record} {index : Tls.TlsParameterIndex} {answered : Bool} :
    (Handshakes.cipherEvidence row index answered).name =
      if answered then Handshakes.asStr (row.get "cipher") Handshakes.maxNameLen else none := by
  unfold Handshakes.cipherEvidence
  cases answered with
  | false => rfl
  | true =>
    cases Handshakes.asStr (row.get "cipher") Handshakes.maxNameLen with
    | none => rfl
    | some name => cases hcode : index.cipherCode name <;> simp [hcode]

/-! ## The classification -/

/-- TLS 1.3 has a mechanism other than a bare PSK only with a share of the server's. -/
theorem classifyTls13_share {serverGroup : Option Int} {clientGroups modes : List Nat}
    {curve groupName : Option String} {resumed : Bool} {mechanism : String}
    (h : (Tls.classifyTls13 serverGroup clientGroups modes curve resumed groupName).mechanism =
      some mechanism) (hpsk : mechanism ≠ "PSK") :
    serverGroup.isSome = true ∨ curve.any Py.truthy = true := by
  rw [← Bool.or_eq_true]
  cases hshare : serverGroup.isSome || curve.any Py.truthy with
  | true => rfl
  | false =>
    unfold Tls.classifyTls13 at h
    simp only [hshare, Bool.and_false, Bool.false_eq_true, if_false] at h
    split at h
    · split at h <;> exact absurd (Option.some.inj h).symm hpsk
    · split at h <;> exact absurd h (by simp)

theorem classifyTls12_mechanism {cipherSuite curve : Option String} {dhParamSize : Option Nat}
    {mechanism : String}
    (h : (Tls.classifyTls12 cipherSuite dhParamSize curve).mechanism = some mechanism) :
    ∃ suite, cipherSuite = some suite ∧ Tls.tls12MechanismFromName suite = some mechanism := by
  unfold Tls.classifyTls12 at h
  cases cipherSuite with
  | none => exact absurd h (by simp)
  | some suite =>
    simp only at h
    split at h
    · exact absurd h (by simp)
    · cases hname : Tls.tls12MechanismFromName suite with
      | none =>
        rw [hname] at h
        exact absurd h (by simp)
      | some named =>
        rw [hname] at h
        exact ⟨suite, rfl, hname.trans h⟩

/-- What the mechanism of a row's key exchange was classified from. -/
theorem keyExchange_mechanism {row : Record} {version : TlsVersionEvidence}
    {index : Tls.TlsParameterIndex} {resumed : Bool} {evidence : KeyExchangeEvidence}
    (h : Handshakes.keyExchangeEvidence row version index resumed = .ok evidence) :
    ∃ loggedGroup clientGroups dhParamSize modes groupName, ∃ serverGroup : Option Int,
      asInt (row.get "server_key_share_group") = .ok loggedGroup ∧
      (serverGroup.isSome = true → loggedGroup.isSome = true ∨
        (Handshakes.asStr (row.get "curve") Handshakes.maxNameLen).isSome = true) ∧
      evidence.mechanism = (Tls.classifyKeyExchange version.selected
        (Handshakes.asStr (row.get "cipher") Handshakes.maxNameLen) serverGroup clientGroups
        dhParamSize modes (Handshakes.asStr (row.get "curve") Handshakes.maxNameLen) resumed
        groupName).mechanism := by
  obtain ⟨loggedGroup, hgroup, h⟩ := Fallible.bind_eq_ok.mp h
  obtain ⟨clientGroups, _, h⟩ := Fallible.bind_eq_ok.mp h
  obtain ⟨dhParamSize, _, h⟩ := Fallible.bind_eq_ok.mp h
  obtain ⟨modes, _, h⟩ := Fallible.bind_eq_ok.mp h
  obtain ⟨code, _, h⟩ := Fallible.bind_eq_ok.mp h
  obtain rfl := Fallible.pure_eq_ok.mp h
  -- A group the row does not log is looked up from its curve.
  refine ⟨loggedGroup, clientGroups, dhParamSize, modes, _, _, hgroup, ?_, rfl⟩
  intro hserver
  cases loggedGroup with
  | some group => exact Or.inl rfl
  | none =>
    cases hcurve : Handshakes.asStr (row.get "curve") Handshakes.maxNameLen with
    | some curve => exact Or.inr rfl
    | none =>
      rw [hcurve] at hserver
      exact absurd hserver (by simp)

/-! ## The assessment -/

/-- What the assessment of a handshake can answer. Each answer comes with the part of the record it
rests on, so that soundness is a look at each case. -/
inductive ForwardSecrecyCase (h : TlsHandshake) : Tls.ForwardSecrecyOutcome → Prop
  | indeterminate : ForwardSecrecyCase h .indeterminate
  | tls13 (mechanism : String) (hstate : h.evidenceState ≠ .conflicting)
      (hversion : h.version.selected = some "TLSv13")
      (hmechanism : h.keyExchange.mechanism = some mechanism)
      (hpresent : mechanism ∈ Tls.tls13Present) : ForwardSecrecyCase h .present
  | older (version mechanism : String) (hstate : h.evidenceState ≠ .conflicting)
      (hversion : h.version.selected = some version) (holder : version ∈ olderVersions)
      (hmechanism : h.keyExchange.mechanism = some mechanism)
      (hpresent : mechanism ∈ Tls.tls12Present) : ForwardSecrecyCase h .present
  | static (version mechanism : String) (hversion : h.version.selected = some version)
      (holder : version ∈ olderVersions) (hmechanism : h.keyExchange.mechanism = some mechanism)
      (habsent : mechanism ∈ Tls.tls12Absent) : ForwardSecrecyCase h .absent

theorem forwardSecrecy_cases (h : TlsHandshake) :
    ForwardSecrecyCase h (assessForwardSecrecy h).outcome := by
  unfold assessForwardSecrecy
  split
  · exact .indeterminate
  rename_i hstate
  have hstate : h.evidenceState ≠ .conflicting := by
    intro hconflicting
    rw [hconflicting] at hstate
    exact hstate (by decide)
  cases hversion : h.version.selected with
  | none => exact .indeterminate
  | some version =>
    simp only
    split
    · exact .indeterminate
    split
    · exact .indeterminate
    cases hmechanism : h.keyExchange.mechanism with
    | none => exact .indeterminate
    | some mechanism =>
      simp only
      split
      · -- Present under TLS 1.3 is a matter of the mechanism alone; nothing there is absent.
        rename_i htls13
        subst htls13
        split
        · rename_i hpresent
          rw [Bool.and_eq_true, List.contains_iff_mem] at hpresent
          exact .tls13 mechanism hstate hversion hmechanism hpresent.1
        · split <;> exact .indeterminate
      · split
        · rename_i holder
          rw [List.contains_iff_mem] at holder
          split
          · rename_i hpresent
            rw [Bool.and_eq_true, List.contains_iff_mem] at hpresent
            exact .older version mechanism hstate hversion holder hmechanism hpresent.1
          · split
            · rename_i habsent
              rw [Bool.and_eq_true, List.contains_iff_mem] at habsent
              exact .static version mechanism hversion holder hmechanism habsent.1
            · split <;> exact .indeterminate
        · exact .indeterminate

/-! ## The chain -/

section Chain

variable {row : Record} {flow : Option Flow} {index : Tls.TlsParameterIndex} {h : TlsHandshake}

theorem serverAnswers_of_selected (hmade : Handshakes.MadeFrom row flow index h)
    (hselected : h.version.selected ≠ none) : ServerAnswers row h :=
  (serverAnswers_iff hmade.sslHistory).mpr (selected_of_serverHello hmade.version hselected)

theorem flow_of_evidenceState (hmade : Handshakes.MadeFrom row flow index h)
    (hstate : h.evidenceState ≠ .conflicting) :
    ∀ f ∈ flow, f.reconstructionQuality ≠ .conflicting := by
  rintro f rfl hconflicting
  apply hstate
  rw [hmade.evidenceState, Handshakes.handshakeEvidenceState]
  exact if_pos (by simpa using hconflicting)

theorem selectedShare_of_mechanism (hmade : Handshakes.MadeFrom row flow index h)
    {mechanism : String} (hversion : h.version.selected = some "TLSv13")
    (hmechanism : h.keyExchange.mechanism = some mechanism)
    (hpresent : mechanism ∈ Tls.tls13Present) : SelectedShare row h := by
  obtain ⟨loggedGroup, clientGroups, dhParamSize, modes, groupName, serverGroup, hgroup, hserver,
    hclassified⟩ := keyExchange_mechanism hmade.keyExchange
  have htls13 : Tls.isTls13 "TLSv13" = true := by decide
  rw [hversion, Tls.classifyKeyExchange, if_pos htls13, hmechanism] at hclassified
  -- A bare PSK needs no share, but it is none of the mechanisms that are present.
  have hpsk : mechanism ≠ "PSK" := by
    rintro rfl
    exact absurd hpresent (by decide)
  have hshare : loggedGroup.isSome = true ∨
      (Handshakes.asStr (row.get "curve") Handshakes.maxNameLen).isSome = true := by
    rcases classifyTls13_share hclassified.symm hpsk with hgroup' | hcurve
    · exact hserver hgroup'
    · refine Or.inr ?_
      by_contra hnone
      rw [Option.not_isSome_iff_eq_none.mp hnone] at hcurve
      exact absurd hcurve (by simp)
  refine ⟨hversion, ?_⟩
  rcases hshare with hlogged | hcurve
  · obtain ⟨group, rfl⟩ := Option.isSome_iff_exists.mp hlogged
    exact Or.inl ⟨group, hgroup⟩
  · exact Or.inr (Option.isSome_iff_exists.mp hcurve)

theorem selectedToken_of_mechanism (hmade : Handshakes.MadeFrom row flow index h)
    {version mechanism : String} {tokens : List String}
    (hversion : h.version.selected = some version) (holder : version ∈ olderVersions)
    (hmechanism : h.keyExchange.mechanism = some mechanism) (htoken : mechanism ∈ tokens)
    (hdeciding : tokens ⊆ Tls.decidingTokens) : SelectedToken tokens h := by
  obtain ⟨_, clientGroups, dhParamSize, modes, groupName, serverGroup, _, _, hclassified⟩ :=
    keyExchange_mechanism hmade.keyExchange
  have hnot : ∀ version ∈ olderVersions, ¬ Tls.isTls13 version = true := by decide
  rw [hversion, Tls.classifyKeyExchange, if_neg (hnot version holder), hmechanism] at hclassified
  obtain ⟨suite, hsuite, hname⟩ := classifyTls12_mechanism hclassified.symm
  have hserver : hasServerHello (historyOf row) = true :=
    selected_of_serverHello hmade.version (by simp [hversion])
  have hcipher : h.cipherSuite.name = some suite := by
    rw [hmade.cipherSuite, cipherEvidence_name, if_pos hserver, hsuite]
  exact ⟨version, suite, mechanism, hversion, holder, hcipher,
    Tls.kxToken_of_mechanism (hdeciding htoken) hname, htoken⟩

end Chain

/-- **A verdict on forward secrecy rests on what the server selected.** Whatever the row offers, and
whatever the registry and the frames. -/
theorem forwardSecrecy_sound {row : Record} {flow : Option Flow} {index : Tls.TlsParameterIndex}
    {frames : List Record} {h : TlsHandshake}
    (hyields : Handshakes.handshakeFromRow row flow index frames = .ok (some h)) :
    SoundVerdict row flow h := by
  have hmade := Handshakes.madeFrom_of_eq_ok hyields
  have hcases := forwardSecrecy_cases h
  refine ⟨fun hpresent => ?_, fun habsent => ?_, fun hnot => ?_⟩
  · rw [hpresent] at hcases
    cases hcases with
    | tls13 mechanism hstate hversion hmechanism hmem =>
      exact ⟨serverAnswers_of_selected hmade (by simp [hversion]),
        flow_of_evidenceState hmade hstate,
        Or.inl (selectedShare_of_mechanism hmade hversion hmechanism hmem)⟩
    | older version mechanism hstate hversion holder hmechanism hmem =>
      exact ⟨serverAnswers_of_selected hmade (by simp [hversion]),
        flow_of_evidenceState hmade hstate,
        Or.inr (selectedToken_of_mechanism hmade hversion holder hmechanism hmem (by decide))⟩
  · rw [habsent] at hcases
    cases hcases with
    | static version mechanism hversion holder hmechanism hmem =>
      exact selectedToken_of_mechanism hmade hversion holder hmechanism hmem (by decide)
  · -- No letter of the server's: nothing was selected, so there is nothing to assess.
    have hselected : h.version.selected = none := by
      by_contra hsome
      exact hnot (serverAnswers_of_selected hmade hsome)
    have hserver : ¬ hasServerHello (historyOf row) = true := fun hserver =>
      hnot ((serverAnswers_iff hmade.sslHistory).mpr hserver)
    refine ⟨hselected, ?_, ?_, ?_⟩
    · rw [hmade.cipherSuite, cipherEvidence_name, if_neg hserver]
    · obtain ⟨_, _, _, _, _, _, _, _, hclassified⟩ := keyExchange_mechanism hmade.keyExchange
      rw [hclassified, hselected]
      rfl
    · generalize (assessForwardSecrecy h).outcome = outcome at hcases ⊢
      cases hcases with
      | indeterminate => rfl
      | tls13 _ _ hversion => exact absurd (hversion.symm.trans hselected) (by simp)
      | older _ _ _ hversion => exact absurd (hversion.symm.trans hselected) (by simp)
      | static _ _ hversion => exact absurd (hversion.symm.trans hselected) (by simp)

/-- A TLS 1.3 handshake whose row has a curve and no group. -/
def tls13Row (history : String) : Record :=
  [("uid", .str "C1"), ("ssl_history", .str history), ("version", .str "TLSv13"),
   ("cipher", .str "TLS_AES_128_GCM_SHA256"), ("curve", .str "x25519")]

theorem tls13_curve_sound :
    ∃ h, Handshakes.handshakeFromRow (tls13Row "CsxyF") (some (Flow.toPort "C1" 465)) .empty [] =
        .ok (some h) ∧ (assessForwardSecrecy h).outcome = .present ∧
      SoundVerdict (tls13Row "CsxyF") (some (Flow.toPort "C1" 465)) h := by
  have hverdict : ((Handshakes.handshakeFromRow (tls13Row "CsxyF") (some (Flow.toPort "C1" 465))
      .empty []).toOption.bind fun made =>
        made.map fun h => (assessForwardSecrecy h).outcome) = some .present := by
    decide +kernel
  cases hyields : Handshakes.handshakeFromRow (tls13Row "CsxyF") (some (Flow.toPort "C1" 465))
      .empty [] with
  | error e =>
    rw [hyields] at hverdict
    exact absurd hverdict (by simp [Except.toOption])
  | ok made =>
    rw [hyields] at hverdict
    obtain ⟨h, rfl, hpresent⟩ := Option.map_eq_some_iff.mp hverdict
    exact ⟨h, rfl, hpresent, forwardSecrecy_sound hyields⟩

end Normalize
end SecureMail
