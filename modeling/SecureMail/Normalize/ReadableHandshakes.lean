import SecureMail.Normalize.Readable

/-!
# Logs and frames `normalize_handshakes` can read

A frame is read once it names a handshake type, and then it belongs to the connection it is matched
to. A row of `ssl.log` is read once it has a uid, together with the frames of its connection: the
versions and the key exchange of the row, the number and the group of each frame, and for a history
with a CertificateVerify the algorithm of the frames that carry one, up to the first that names it.

The last clause is the one that makes this condition longer than the others: the frames are asked
for an algorithm one after the other until one has it, so a frame behind that one is not read for
it. The rows come in the order of the log, and since each of them is read whatever the others hold,
the order does not matter for whether the run returns.
-/

namespace SecureMail
namespace Normalize
namespace Handshakes

open Py (Val Dict isIn)
open Tls (TlsParameterIndex)
open Fallible (Returns returns_pure not_returns_throw returns_bind returns_bind_and
  returns_bind_pure returns_ite returns_foldlM_iff_forall)

/-! ## The fields of a row -/

/-- The versions of a row. -/
structure VersionsReadable (row : Record) : Prop where
  client : IntListReadable (row.get "client_supported_versions") 64
  serverSupported : VersionReadable (row.get "server_supported_version")
  server : VersionReadable (row.get "server_version")
  zeek : VersionReadable (row.get "version")

theorem returns_resolveSelectedVersion_iff {row : Record} {sslHistory : String} :
    Returns (resolveSelectedVersion row sslHistory) ↔ VersionsReadable row := by
  have hfields : Returns (resolveSelectedVersion row sslHistory) ↔
      IntListReadable (row.get "client_supported_versions") 64 ∧
        VersionReadable (row.get "server_supported_version") ∧
          VersionReadable (row.get "server_version") ∧ VersionReadable (row.get "version") := by
    unfold resolveSelectedVersion
    rw [← returns_asIntList_iff, ← returns_decodeTlsVersion_iff, ← returns_decodeTlsVersion_iff,
      ← returns_decodeTlsVersion_iff]
    refine returns_bind_and fun clientVersions _ => returns_bind_and fun serverSupported _ =>
      returns_bind_and fun serverVersion _ => ?_
    rw [returns_bind]
    exact and_iff_left fun zeekVersion _ =>
      returns_ite (returns_pure _) (returns_ite (returns_pure _) (returns_pure _))
  rw [hfields]
  exact ⟨fun ⟨h₁, h₂, h₃, h₄⟩ => ⟨h₁, h₂, h₃, h₄⟩, fun h => ⟨h.1, h.2, h.3, h.4⟩⟩

/-- The group a row selects, by its number or by the name of its curve. -/
def serverGroupOf (index : TlsParameterIndex) (row : Record) (loggedGroup : Option Nat) :
    Option Int :=
  let logged : Option Int := loggedGroup.map Int.ofNat
  if (index.groupName logged).isNone then
    logged.or ((asStr (row.get "curve") maxNameLen).bind index.groupCode)
  else logged

/-- The key exchange of a row. The group it selects must have a code of two bytes. -/
structure KeyExchangeReadable (index : TlsParameterIndex) (row : Record) : Prop where
  loggedGroup : IntReadable (row.get "server_key_share_group")
  clientGroups : IntListReadable (row.get "client_key_share_groups") 64
  dhParamSize : IntReadable (row.get "dh_param_size")
  pskModes : IntListReadable (row.get "psk_key_exchange_modes") 64
  group : ∀ loggedGroup, asInt (row.get "server_key_share_group") = .ok loggedGroup →
    ∀ n, serverGroupOf index row loggedGroup = some n → 0 ≤ n ∧ n < 65536

theorem returns_validGroupCode_iff {group : Option Int} :
    Returns (validGroupCode group) ↔ ∀ n, group = some n → 0 ≤ n ∧ n < 65536 := by
  unfold validGroupCode
  cases group with
  | none => simp [returns_pure]
  | some n =>
    simp only [Option.some.injEq, forall_eq']
    by_cases hn : n.toNat < 65536 ∧ 0 ≤ n
    · rw [dif_pos hn]
      refine ⟨fun _ => ⟨hn.2, ?_⟩, fun _ => returns_pure _⟩
      omega
    · rw [dif_neg hn]
      refine ⟨fun h => absurd h (not_returns_throw _), fun h => absurd h ?_⟩
      omega

theorem returns_keyExchangeEvidence_iff {row : Record} {version : TlsVersionEvidence}
    {index : TlsParameterIndex} {resumed : Bool} :
    Returns (keyExchangeEvidence row version index resumed) ↔ KeyExchangeReadable index row := by
  unfold keyExchangeEvidence
  constructor
  · intro h
    obtain ⟨⟨loggedGroup, hlogged⟩, h⟩ := returns_bind.mp h
    obtain ⟨⟨clientGroups, hclient⟩, h⟩ := returns_bind.mp (h loggedGroup hlogged)
    obtain ⟨⟨dhParamSize, hdh⟩, h⟩ := returns_bind.mp (h clientGroups hclient)
    obtain ⟨⟨pskModes, hpsk⟩, h⟩ := returns_bind.mp (h dhParamSize hdh)
    have hcode := returns_bind_pure.mp (h pskModes hpsk)
    refine ⟨returns_asInt_iff.mp ⟨_, hlogged⟩, returns_asIntList_iff.mp ⟨_, hclient⟩,
      returns_asInt_iff.mp ⟨_, hdh⟩, returns_asIntList_iff.mp ⟨_, hpsk⟩, ?_⟩
    intro loggedGroup' hlogged'
    obtain rfl : loggedGroup = loggedGroup' := Except.ok.inj (hlogged.symm.trans hlogged')
    exact returns_validGroupCode_iff.mp hcode
  · intro h
    refine returns_bind.mpr ⟨returns_asInt_iff.mpr h.loggedGroup, fun loggedGroup hlogged => ?_⟩
    refine returns_bind.mpr ⟨returns_asIntList_iff.mpr h.clientGroups, fun clientGroups _ => ?_⟩
    refine returns_bind.mpr ⟨returns_asInt_iff.mpr h.dhParamSize, fun dhParamSize _ => ?_⟩
    refine returns_bind.mpr ⟨returns_asIntList_iff.mpr h.pskModes, fun pskModes _ => ?_⟩
    exact returns_bind_pure.mpr (returns_validGroupCode_iff.mpr (h.group loggedGroup hlogged))

/-! ## The fields of a frame -/

/-- Where a frame has the group its ServerHello selects. -/
def selectedGroupField (frame : Record) : Val :=
  match frame.get "tls.handshake.extensions_key_share_selected_group" with
  | .none => frame.get "tls.handshake.extensions.key_share.selected_group"
  | value => value

theorem returns_tsharkSelectedGroup_iff {frame : Record} :
    Returns (tsharkSelectedGroup frame) ↔ IntReadable (selectedGroupField frame) := by
  unfold tsharkSelectedGroup
  show Returns (asInt (selectedGroupField frame) >>= _) ↔ _
  rw [returns_bind, returns_asInt_iff]
  refine and_iff_left fun number _ => ?_
  cases number with
  | some n => exact returns_pure _
  | none =>
    simp only
    split
    · exact returns_pure _
    · exact returns_pure _

/-- A frame of a connection: its number, and once it has one its types and its group. -/
structure AttachReadable (frame : Record) : Prop where
  number : IntReadable (frame.get "frame.number")
  rest : ∀ n, asInt (frame.get "frame.number") = .ok (some n) → 0 < n →
    IntListReadable (frame.get "tls.handshake.type") 16 ∧ IntReadable (selectedGroupField frame)

theorem returns_attachFrame_iff {s : Attachment} {frame : Record} :
    Returns (attachFrame s frame) ↔ AttachReadable frame := by
  have hparts : AttachReadable frame ↔ Returns (asInt (frame.get "frame.number")) ∧
      ∀ number, asInt (frame.get "frame.number") = .ok number → ∀ n, number = some n → 0 < n →
        IntListReadable (frame.get "tls.handshake.type") 16 ∧
          IntReadable (selectedGroupField frame) := by
    rw [returns_asInt_iff]
    constructor
    · intro h
      refine ⟨h.number, ?_⟩
      rintro number hnumber n rfl
      exact h.rest n hnumber
    · exact fun h => ⟨h.1, fun n hn => h.2 _ hn n rfl⟩
  rw [hparts]
  unfold attachFrame
  rw [returns_bind]
  refine and_congr_right fun _ => forall₂_congr fun number _ => ?_
  cases number with
  | none => simp [returns_pure]
  | some n =>
    simp only [Option.some.injEq, forall_eq']
    by_cases hn : 0 < n
    · rw [dif_pos hn, ← returns_asIntList_iff, ← returns_tsharkSelectedGroup_iff]
      simp only [hn, true_implies]
      exact returns_bind_and fun types _ => returns_bind_pure
    · rw [dif_neg hn]
      simp [hn, returns_pure]

theorem returns_attachFrames_iff {messages : List HandshakeMessage} {frames : List Record} :
    Returns (attachFrames messages frames) ↔ ∀ frame ∈ frames, AttachReadable frame := by
  unfold attachFrames
  rw [returns_bind_pure]
  exact returns_foldlM_iff_forall fun _ _ _ => returns_attachFrame_iff

/-- The frame has the type of a CertificateVerify. -/
def carriesVerify (frame : Record) : Prop :=
  ∃ types, tsharkHandshakeTypes frame = .ok types ∧ 15 ∈ types

/-- The frames with a CertificateVerify, up to the first that names its algorithm. -/
def VerifyReadable (frames : List Record) : Prop :=
  ∀ pre frame post, frames = pre ++ frame :: post →
    (∀ before ∈ pre, carriesVerify before → decodeSignatureScheme (signatureField before) = .ok none) →
      IntListReadable (frame.get "tls.handshake.type") 16 ∧
        (carriesVerify frame → SchemeReadable (signatureField frame))

theorem verifyReadable_cons {frame : Record} {rest : List Record} :
    VerifyReadable (frame :: rest) ↔ IntListReadable (frame.get "tls.handshake.type") 16 ∧
      (carriesVerify frame → SchemeReadable (signatureField frame)) ∧
        ((carriesVerify frame → decodeSignatureScheme (signatureField frame) = .ok none) →
          VerifyReadable rest) := by
  constructor
  · intro h
    obtain ⟨htypes, hscheme⟩ := h [] frame rest rfl (by simp)
    refine ⟨htypes, hscheme, ?_⟩
    intro hnone pre frame' post hsplit hpre
    refine h (frame :: pre) frame' post (by rw [hsplit, List.cons_append]) ?_
    rw [List.forall_mem_cons]
    exact ⟨hnone, hpre⟩
  · rintro ⟨htypes, hscheme, hrest⟩ pre frame' post hsplit hpre
    cases pre with
    | nil =>
      obtain ⟨rfl, -⟩ := List.cons.inj hsplit
      exact ⟨htypes, hscheme⟩
    | cons first pre =>
      obtain ⟨rfl, htail⟩ := List.cons.inj hsplit
      rw [List.forall_mem_cons] at hpre
      exact hrest hpre.1 pre frame' post htail hpre.2

theorem returns_verifyAlgorithm_iff {frames : List Record} :
    Returns (verifyAlgorithm frames) ↔ VerifyReadable frames := by
  induction frames with
  | nil =>
    refine ⟨fun _ pre frame post hsplit => ?_, fun _ => returns_pure none⟩
    simp at hsplit
  | cons frame rest ih =>
    rw [verifyReadable_cons, ← returns_asIntList_iff, verifyAlgorithm, returns_bind]
    refine and_congr_right fun htypes => ?_
    obtain ⟨types, htypes⟩ := htypes
    have htypes : tsharkHandshakeTypes frame = .ok types := htypes
    rw [htypes]
    simp only [Except.ok.injEq, forall_eq']
    have hcarries : carriesVerify frame ↔ types.contains 15 = true := by
      unfold carriesVerify
      rw [htypes, List.contains_iff_mem]
      simp
    rw [hcarries]
    cases types.contains 15 with
    | false => simpa using ih
    | true =>
      simp only [Bool.not_true, Bool.false_eq_true, if_false, true_implies]
      rw [returns_bind, returns_decodeSignatureScheme_iff]
      refine and_congr_right fun hscheme => ?_
      obtain ⟨algorithm, halgorithm⟩ := returns_decodeSignatureScheme_iff.mpr hscheme
      rw [halgorithm]
      simp only [Except.ok.injEq, forall_eq']
      cases algorithm with
      | some name => simp [returns_pure]
      | none => simpa using ih

/-! ## A row and its frames -/

/-- The history has a CertificateVerify. -/
def showsVerify (history : String) : Bool := isIn "y" history || isIn "Y" history

theorem returns_certificateVerifySignature_iff {history : String} {frames : List Record} :
    Returns (certificateVerifySignature history frames) ↔
      (showsVerify history = true → VerifyReadable frames) := by
  unfold certificateVerifySignature showsVerify
  by_cases hshown : (isIn "y" history || isIn "Y" history) = true
  · have hneg : (!isIn "y" history && !isIn "Y" history) = false := by
      rw [← Bool.not_or, hshown]
      rfl
    simp only [hneg, hshown, Bool.false_eq_true, if_false, true_implies]
    rw [returns_bind, returns_verifyAlgorithm_iff]
    refine and_iff_left fun algorithm _ => ?_
    cases algorithm with
    | none => exact returns_pure _
    | some name => exact returns_pure _
  · have hneg : (!isIn "y" history && !isIn "Y" history) = true := by
      rw [← Bool.not_or]
      simpa using hshown
    rw [if_pos hneg]
    exact ⟨fun _ h => absurd h hshown, fun _ => returns_pure _⟩

/-- A row of `ssl.log` with the frames of its connection. -/
structure RowReadable (index : TlsParameterIndex) (row : Record) (frames : List Record) : Prop where
  versions : VersionsReadable row
  attached : ∀ frame ∈ frames, AttachReadable frame
  keyExchange : KeyExchangeReadable index row
  verify : showsVerify (historyOf row) = true → VerifyReadable frames

theorem returns_handshakeFromRow_iff {row : Record} {flow : Option Flow}
    {index : TlsParameterIndex} {frames : List Record} :
    Returns (handshakeFromRow row flow index frames) ↔
      ((asStr (row.get "uid") maxUidLen).isSome = true → RowReadable index row frames) := by
  unfold handshakeFromRow
  cases asStr (row.get "uid") maxUidLen with
  | none => simp [returns_pure]
  | some uid =>
    have hfields : RowReadable index row frames ↔ VersionsReadable row ∧
        (∀ frame ∈ frames, AttachReadable frame) ∧ KeyExchangeReadable index row ∧
          (showsVerify (historyOf row) = true → VerifyReadable frames) :=
      ⟨fun ⟨h₁, h₂, h₃, h₄⟩ => ⟨h₁, h₂, h₃, h₄⟩, fun ⟨h₁, h₂, h₃, h₄⟩ => ⟨h₁, h₂, h₃, h₄⟩⟩
    simp only [Option.isSome_some, true_implies]
    rw [hfields, ← @returns_resolveSelectedVersion_iff row (historyOf row)]
    refine returns_bind_and fun version _ => ?_
    rw [← @returns_attachFrames_iff (messagesFromSslHistory (historyOf row))]
    refine returns_bind_and fun messages _ => ?_
    rw [← returns_keyExchangeEvidence_iff]
    refine returns_bind_and fun keyExchange _ => ?_
    rw [← returns_certificateVerifySignature_iff]
    exact returns_bind_pure

/-! ## The passes -/

/-- The frame has a handshake message. -/
def carriesHandshake (frame : Record) : Bool :=
  match tsharkHandshakeTypes frame with
  | .ok types => !types.isEmpty
  | .error _ => false

/-- The frames that are kept under a connection. -/
def keptUnder (flows : List Flow) (frames : List Record) (uid : String) : List Record :=
  frames.filter fun frame =>
    carriesHandshake frame && decide (matchFrameUid frame flows = .ok (some uid))

/-- A frame that is read: its types, and once it has one the ports it is matched by. -/
structure FrameReadable (frame : Record) : Prop where
  types : IntListReadable (frame.get "tls.handshake.type") 16
  ports : carriesHandshake frame = true →
    IntReadable (frame.get "tcp.srcport") ∧ IntReadable (frame.get "tcp.dstport")

theorem returns_frameStep_iff {flows : List Flow} {framesByUid : Dict String (List Record)}
    {frame : Record} : Returns (frameStep flows framesByUid frame) ↔ FrameReadable frame := by
  have hfields : FrameReadable frame ↔ IntListReadable (frame.get "tls.handshake.type") 16 ∧
      (carriesHandshake frame = true →
        IntReadable (frame.get "tcp.srcport") ∧ IntReadable (frame.get "tcp.dstport")) :=
    ⟨fun h => ⟨h.types, h.ports⟩, fun h => ⟨h.1, h.2⟩⟩
  unfold frameStep
  rw [hfields, ← returns_asIntList_iff, returns_bind]
  refine and_congr_right fun htypes => ?_
  obtain ⟨types, htypes⟩ := htypes
  have htypes : tsharkHandshakeTypes frame = .ok types := htypes
  unfold carriesHandshake
  rw [htypes]
  simp only [Except.ok.injEq, forall_eq']
  cases types with
  | nil => simp [returns_pure]
  | cons type rest =>
    simp only [List.isEmpty_cons, Bool.false_eq_true, if_false, Bool.not_false, true_implies]
    rw [returns_bind, matchFrameUid, returns_matchFrameUid_iff]
    refine and_iff_left fun owner _ => ?_
    cases owner with
    | none => exact returns_pure _
    | some uid => exact returns_pure _

theorem getD_frameStep {flows : List Flow} {before after : Dict String (List Record)}
    {frame : Record} (h : frameStep flows before frame = .ok after) (uid : String) :
    (after.get? uid).getD [] = (before.get? uid).getD [] ++ keptUnder flows [frame] uid := by
  obtain ⟨types, htypes, h⟩ := Fallible.bind_eq_ok.mp h
  unfold keptUnder carriesHandshake
  rw [List.filter_singleton, htypes]
  cases types with
  | nil =>
    obtain rfl := Fallible.pure_eq_ok.mp h
    simp
  | cons type rest =>
    obtain ⟨owner, howner, h⟩ := Fallible.bind_eq_ok.mp h
    cases owner with
    | none =>
      obtain rfl := Fallible.pure_eq_ok.mp h
      simp [howner]
    | some owner =>
      obtain rfl := Fallible.pure_eq_ok.mp h
      rw [Dict.update, Dict.get?_set]
      by_cases huid : uid = owner
      · subst huid
        simp [howner]
      · simp [howner, huid, Ne.symm huid]

/-- The frames a connection has after the pass. -/
theorem getD_framesByUid {flows : List Flow} {frames : List Record}
    {before after : Dict String (List Record)}
    (h : frames.foldlM (frameStep flows) before = .ok after) (uid : String) :
    (after.get? uid).getD [] = (before.get? uid).getD [] ++ keptUnder flows frames uid := by
  induction frames generalizing before with
  | nil =>
    obtain rfl := Fallible.pure_eq_ok.mp h
    simp [keptUnder]
  | cons frame rest ih =>
    obtain ⟨between, hstep, hrest⟩ := Fallible.foldlM_cons_eq_ok.mp h
    have hsplit : keptUnder flows (frame :: rest) uid =
        keptUnder flows [frame] uid ++ keptUnder flows rest uid := by
      unfold keptUnder
      rw [← List.filter_append]
      rfl
    rw [ih hrest, getD_frameStep hstep, hsplit, List.append_assoc]

/-- The frames that are read. -/
def readFrames (tsharkFrames : Option (List Val)) : List Record :=
  boundedRecords (.list (tsharkFrames.getD [])) maxFrames

/-- The frames and the rows are readable, each row with the frames of its connection. -/
structure InputReadable (logs : Record) (flows : List Flow) (index : TlsParameterIndex)
    (tsharkFrames : Option (List Val)) : Prop where
  frames : ∀ frame ∈ readFrames tsharkFrames, FrameReadable frame
  rows : ∀ row ∈ boundedRecords (getLog logs "ssl.log") maxRecords, ∀ uid,
    asStr (row.get "uid") maxUidLen = some uid →
      RowReadable index row (keptUnder flows (readFrames tsharkFrames) uid)

/-- **`normalize_handshakes` returns on the input it can read, and on no other.** Each row is asked
together with the frames that the table has for it. -/
theorem returns_normalizeHandshakes_iff {logs : Record} {flows : List Flow}
    {index : TlsParameterIndex} {tsharkFrames : Option (List Val)} :
    Returns (normalizeHandshakes logs flows index tsharkFrames) ↔
      InputReadable logs flows index tsharkFrames := by
  have hframes : Returns ((readFrames tsharkFrames).foldlM (frameStep flows) ∅) ↔
      ∀ frame ∈ readFrames tsharkFrames, FrameReadable frame :=
    returns_foldlM_iff_forall fun _ _ _ => returns_frameStep_iff
  have hrow : ∀ (framesByUid : Dict String (List Record)) (made : List TlsHandshake)
      (row : Record), (∀ uid, (framesByUid.get? uid).getD [] =
        keptUnder flows (readFrames tsharkFrames) uid) →
      (Returns (rowStep (Dict.ofList (·.uid) id flows) index framesByUid made row) ↔
        ∀ uid, asStr (row.get "uid") maxUidLen = some uid →
          RowReadable index row (keptUnder flows (readFrames tsharkFrames) uid)) := by
    intro framesByUid made row hkept
    unfold rowStep
    rw [returns_bind, returns_handshakeFromRow_iff, and_iff_left]
    · cases asStr (row.get "uid") maxUidLen with
      | none => simp
      | some uid => simp [hkept]
    · intro one _
      cases one with
      | none => exact returns_pure _
      | some handshake => exact returns_pure _
  have hrows : ∀ framesByUid : Dict String (List Record),
      (readFrames tsharkFrames).foldlM (frameStep flows) ∅ = .ok framesByUid →
      (Returns ((boundedRecords (getLog logs "ssl.log") maxRecords).foldlM
          (rowStep (Dict.ofList (·.uid) id flows) index framesByUid) []) ↔
        ∀ row ∈ boundedRecords (getLog logs "ssl.log") maxRecords, ∀ uid,
          asStr (row.get "uid") maxUidLen = some uid →
            RowReadable index row (keptUnder flows (readFrames tsharkFrames) uid)) := by
    intro framesByUid hrun
    refine returns_foldlM_iff_forall fun made row _ => hrow framesByUid made row fun uid => ?_
    rw [getD_framesByUid hrun uid]
    rfl
  have hparts : InputReadable logs flows index tsharkFrames ↔
      (∀ frame ∈ readFrames tsharkFrames, FrameReadable frame) ∧
        ∀ row ∈ boundedRecords (getLog logs "ssl.log") maxRecords, ∀ uid,
          asStr (row.get "uid") maxUidLen = some uid →
            RowReadable index row (keptUnder flows (readFrames tsharkFrames) uid) :=
    ⟨fun h => ⟨h.frames, h.rows⟩, fun h => ⟨h.1, h.2⟩⟩
  unfold normalizeHandshakes
  rw [hparts, ← hframes]
  refine returns_bind_and fun framesByUid hrun => ?_
  rw [returns_bind_pure]
  exact hrows framesByUid hrun

end Handshakes
end Normalize
end SecureMail
