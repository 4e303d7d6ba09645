import SecureMail.Evidence.Document
import SecureMail.Policy.Identifiers
import SecureMail.Reports.JsonText

/-!
# The digest of the configuration

A run names its configuration by the digest of a JSON text: the versions of the parts, and the three
settings that differ from run to run. The text is compact and its keys are sorted, so nothing but the
codes of the values tells where one ends. Strings and literals do, and a number ends at the next
comma or brace. So two runs have one text exactly if they have one configuration.

The digest is what a report has of the configuration. Were two configurations to share a text, their
reports could not be told apart by it. The argument is that of a reader. Each part of the text is
read back by a decoder that stops where the part ends (`Delimits`), and decoders compose along the
text; the hash itself is not looked into, so what is proved is that the texts differ.
-/

namespace SecureMail
namespace Analysis

open SelfDelimiting (Delimits StopsAt)
open Reports (jsonString)

/-- A value of the configuration. A JSON value of another shape does not occur in it, so that the
text of a configuration is flat. -/
inductive Setting where
  | text (s : String)
  | number (n : Nat)
  | flag (b : Bool)
  | null
  deriving DecidableEq

/-- `json.dumps` of a value. The text has no white space, and whether it ends can only be told by
the character behind it. -/
def Setting.dump : Setting → List Char
  | .text s => jsonString s
  | .number n => (toString n).toList
  | .flag true => "true".toList
  | .flag false => "false".toList
  | .null => "null".toList

/-- One item of the object. -/
def dumpItem (item : String × Setting) : List Char := jsonString item.1 ++ ':' :: item.2.dump

/-- `json.dumps(.., separators=(",", ":"))`. -/
def dumpSettings (settings : List (String × Setting)) : List Char :=
  '\x7b' :: ([','].intercalate (settings.map dumpItem) ++ ['\x7d'])

/-- The digest of no bytes, which is the one of the empty index. -/
def emptyDigest : String := "e3b0c44298fc1c149afbf4c8996fb92427ae41e4649b934ca495991b7852b855"

/-- `iana_tls_parameters_sha256 or empty_tls_parameter_index().digest`. -/
def effectiveDigest (ianaTlsParametersSha256 : Option String) : String :=
  (ianaTlsParametersSha256.filter (· ≠ "")).getD emptyDigest

/-- `_CONFIGURATION` with the three settings of a run, in the order of the keys. -/
def configuration (ianaTlsParametersSha256 : Option String) (expiryWarningSeconds : Nat)
    (expectedHostname : Option String) : List (String × Setting) :=
  [("capinfos_entry", .text "capinfos"),
   ("certificate_normalization", .text "v1"),
   ("chain_validation", .text "v1"),
   ("evidence_document_schema_version", .text "v2"),
   ("expected_hostname", (expectedHostname.map Setting.text).getD .null),
   ("expiry_warning_seconds", .number expiryWarningSeconds),
   ("flow_normalization", .text "v1"),
   ("handshake_normalization", .text "v1"),
   ("iana_tls_parameters_sha256", .text (effectiveDigest ianaTlsParametersSha256)),
   ("normalization_schema_version", .text "v1"),
   ("posture_schema_version", .text "securemail.posture/v1"),
   ("scoring_schema_version", .text "securemail.scoring/v1"),
   ("session_normalization", .text "v2"),
   ("starttls_evaluation", .text "v1"),
   ("tshark_corroboration", .text "smtp_imap_pop_tls_handshake"),
   ("zeek_deterministic", .flag true),
   ("zeek_entry", .text "zeek/site/__load__.zeek")]

/-- `configuration_digest`. -/
def configurationDigest (sha256 : String → Sha256Hex) (ianaTlsParametersSha256 : Option String)
    (expiryWarningSeconds : Nat) (expectedHostname : Option String) : Sha256Hex :=
  sha256 (String.ofList (dumpSettings
    (configuration ianaTlsParametersSha256 expiryWarningSeconds expectedHostname)))

/-! ## Values -/

/-- What may stand behind a value. -/
def EndsValue (c : Char) : Prop := c = ',' ∨ c = '\x7d'

/-- The first characters of a value. -/
def Setting.Opens : Setting → Char → Prop
  | .text _, c => c = '"'
  | .number _, c => c.isDigit = true
  | .flag true, c => c = 't'
  | .flag false, c => c = 'f'
  | .null, c => c = 'n'

theorem isDigit_of_mem_toString {n : Nat} {c : Char} (h : c ∈ (toString n).toList) :
    c.isDigit = true := by
  rw [Nat.toString_eq_repr, Nat.toList_repr] at h
  exact Nat.isDigit_of_mem_toDigits (by decide) (by decide) h

theorem Setting.dump_opens (setting : Setting) :
    ∃ c rest, setting.dump = c :: rest ∧ setting.Opens c := by
  cases setting with
  | text s => exact ⟨'"', _, rfl, rfl⟩
  | number n =>
    cases hdigits : (toString n).toList with
    | nil =>
      rw [Nat.toString_eq_repr, Nat.toList_repr] at hdigits
      exact absurd hdigits Nat.toDigits_ne_nil
    | cons c rest =>
      exact ⟨c, rest, hdigits, isDigit_of_mem_toString (by rw [hdigits]; exact List.mem_cons_self)⟩
  | flag b =>
    cases b with
    | true => exact ⟨'t', _, rfl, rfl⟩
    | false => exact ⟨'f', _, rfl, rfl⟩
  | null => exact ⟨'n', _, rfl, rfl⟩

theorem stopsAt_jsonString : StopsAt EndsValue jsonString := by
  intro a b x y s t _ _ h
  exact Reports.delimits_jsonString a b _ _ h

theorem stopsAt_number : StopsAt EndsValue fun n : Nat => (toString n).toList := by
  apply SelfDelimiting.stopsAt_of_free
  · intro m n h
    exact Policy.toString_nat_inj (String.toList_injective h)
  · intro n c hc hend
    have hdigit := isDigit_of_mem_toString hc
    rcases hend with rfl | rfl <;> exact absurd hdigit (by decide)

/-- **A value ends at the next comma or brace.** It is what the decoder of a number needs, since a
number alone does not say where it ends. -/
theorem stopsAt_dump : StopsAt EndsValue Setting.dump := by
  intro a b x y s t hx hy h
  -- The first character tells the kinds apart.
  obtain ⟨c, rest, ha, hopens⟩ := a.dump_opens
  obtain ⟨c', rest', hb, hopens'⟩ := b.dump_opens
  have hhead : c = c' := by
    rw [ha, hb] at h
    exact (List.cons.inj h).1
  subst hhead
  cases a with
  | text v =>
    cases b with
    | text w =>
      obtain ⟨rfl, hrest⟩ := stopsAt_jsonString v w x y s t hx hy h
      exact ⟨rfl, hrest⟩
    | number n => exact absurd (hopens ▸ hopens' : '"'.isDigit = true) (by decide)
    | flag b => cases b <;> exact absurd (hopens.symm.trans hopens') (by decide)
    | null => exact absurd (hopens.symm.trans hopens') (by decide)
  | number m =>
    cases b with
    | text w => exact absurd (hopens' ▸ hopens : '"'.isDigit = true) (by decide)
    | number n =>
      obtain ⟨rfl, hrest⟩ := stopsAt_number m n x y s t hx hy h
      exact ⟨rfl, hrest⟩
    | flag b =>
      cases b with
      | true => exact absurd (hopens' ▸ hopens : 't'.isDigit = true) (by decide)
      | false => exact absurd (hopens' ▸ hopens : 'f'.isDigit = true) (by decide)
    | null => exact absurd (hopens' ▸ hopens : 'n'.isDigit = true) (by decide)
  | flag b₁ =>
    cases b with
    | text w => cases b₁ <;> exact absurd (hopens.symm.trans hopens') (by decide)
    | number n =>
      cases b₁ with
      | true => exact absurd (hopens ▸ hopens' : 't'.isDigit = true) (by decide)
      | false => exact absurd (hopens ▸ hopens' : 'f'.isDigit = true) (by decide)
    | flag b₂ =>
      cases b₁ <;> cases b₂
      · exact ⟨rfl, List.append_cancel_left h⟩
      · exact absurd (hopens.symm.trans hopens') (by decide)
      · exact absurd (hopens.symm.trans hopens') (by decide)
      · exact ⟨rfl, List.append_cancel_left h⟩
    | null => cases b₁ <;> exact absurd (hopens.symm.trans hopens') (by decide)
  | null =>
    cases b with
    | text w => exact absurd (hopens.symm.trans hopens') (by decide)
    | number n => exact absurd (hopens ▸ hopens' : 'n'.isDigit = true) (by decide)
    | flag b => cases b <;> exact absurd (hopens.symm.trans hopens') (by decide)
    | null => exact ⟨rfl, List.append_cancel_left h⟩

/-! ## Objects -/

theorem stopsAt_dumpItem : StopsAt EndsValue dumpItem := by
  intro a b x y s t hx hy h
  unfold dumpItem at h
  simp only [List.append_assoc, List.cons_append] at h
  obtain ⟨hname, hvalue⟩ := Reports.delimits_jsonString _ _ _ _ h
  obtain ⟨hsetting, hrest⟩ := stopsAt_dump _ _ x y s t hx hy (List.cons.inj hvalue).2
  exact ⟨Prod.ext hname hsetting, hrest⟩

theorem delimits_dumpSettings : Delimits dumpSettings := by
  intro a b s t h
  have hclose : ∀ item s t, dumpItem item ++ s ≠ '\x7d' :: t := by
    intro item s t h
    exact absurd (List.cons.inj h).1 (by decide)
  exact SelfDelimiting.delimits_separated (by decide) stopsAt_dumpItem hclose a b s t
    (List.cons.inj h).2

theorem dumpSettings_inj {a b : List (String × Setting)} :
    dumpSettings a = dumpSettings b ↔ a = b := by
  refine ⟨fun h => ?_, congrArg dumpSettings⟩
  exact (delimits_dumpSettings a b [] [] (by rw [h])).1

theorem hostname_inj {h h' : Option String} :
    (h.map Setting.text).getD .null = (h'.map Setting.text).getD .null ↔ h = h' := by
  cases h <;> cases h' <;> simp

/-- **Two configurations with one text are one configuration**: the same identifiers of TLS, the same
warning window and the same hostname, whatever characters the hostname has. No digest of an index
stands for the empty index. -/
theorem configuration_text_iff {iana iana' : Option String} {seconds seconds' : Nat}
    {hostname hostname' : Option String} :
    dumpSettings (configuration iana seconds hostname) =
        dumpSettings (configuration iana' seconds' hostname') ↔
      effectiveDigest iana = effectiveDigest iana' ∧ seconds = seconds' ∧
        hostname = hostname' := by
  rw [dumpSettings_inj]
  constructor
  · intro h
    have hvalues := congrArg (List.map Prod.snd) h
    simp only [configuration, List.map_cons, List.cons.injEq, Setting.text.injEq,
      Setting.number.injEq, hostname_inj] at hvalues
    tauto
  · rintro ⟨hdigest, rfl, rfl⟩
    unfold configuration
    rw [hdigest]

end Analysis
end SecureMail
