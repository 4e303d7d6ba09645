import SecureMail.Normalize.Sessions
import SecureMail.Lib.Fallible

/-!
# No byte of a credential reaches the evidence

Two runs are compared whose logs differ only in what a credential command was given: its argument,
and the text the analyzer kept of the line. Both values pass the same two gates before anything
looks at them, `_bound_text` and the test of the command against `_SECRET_COMMANDS`, and behind that
test the value is the constant `<redacted>`. So the two rows make one and the same event, and since
nothing else in the normalizer reads the two fields, every pass after that has nothing to tell the
runs apart by. The whole result is equal, an exception included.

The relation between the two logs is row by row. A row may differ in the two fields if its command,
as the normalizer reads it and up to case, is a credential command, so that no spelling of a command
that the normalizer knows is left out.
-/

namespace SecureMail
namespace Normalize
namespace Sessions

open Py (Val upper strip)

/-! ## The relation between the runs -/

/-- A string the normalizer would take: not blank, and within its limit. -/
def Acceptable (maxLen : Nat) (s : String) : Prop := strip s ≠ "" ∧ s.length ≤ maxLen

/-- Two values a secret field may hold. A value that the normalizer would not take is told apart
from one it takes, and that difference is not a secret. -/
inductive SecretField (maxLen : Nat) : Val → Val → Prop
  | same (value : Val) : SecretField maxLen value value
  | secret {s s' : String} (hs : Acceptable maxLen s) (hs' : Acceptable maxLen s') :
      SecretField maxLen (.str s) (.str s')

/-- The row's command, as the normalizer reads it and up to case, is a secret one. -/
def ReadsSecret (row : Record) : Prop :=
  ∃ command, asStr (row.get "command") maxCommandLen = some command ∧
    upper command ∈ secretCommands

/-- Two rows of one secret command, which differ in its argument and text only. -/
structure SecretRow (row row' : Record) : Prop where
  command : ReadsSecret row
  argument : SecretField maxTextLen (row.get "argument") (row'.get "argument")
  text : SecretField (maxTextLen * 2) (row.get "text") (row'.get "text")
  rest : ∀ key, key ≠ "argument" → key ≠ "text" → row.get key = row'.get key

inductive SecretItem : Val → Val → Prop
  | same (item : Val) : SecretItem item item
  | secret {row row' : Record} (h : SecretRow row row') : SecretItem (.dict row) (.dict row')

/-- Two log mappings that differ only in secrets. Rows stand in pairs, so the two logs have the same
length and the same commands in the same order. -/
structure SecretVariant (logs logs' : Record) : Prop where
  email : ∃ rows rows', getLog logs "sm_email.log" = .list rows ∧
    getLog logs' "sm_email.log" = .list rows' ∧ List.Forall₂ SecretItem rows rows'
  rest : ∀ name, name ≠ "sm_email.log" → getLog logs name = getLog logs' name

/-- A command that is a string is read as itself: no secret command is too long. -/
theorem readsSecret_of_str {row : Record} {command : String}
    (hcommand : row.get "command" = .str command) (hsecret : upper command ∈ secretCommands) :
    ReadsSecret row := by
  have hshort : ∀ c ∈ secretCommands, c.length ≤ maxCommandLen := by decide
  have hne : command ≠ "" := by
    intro h
    rw [h] at hsecret
    exact absurd hsecret (by decide)
  have hlen : ¬ maxCommandLen < command.length := by
    have hup : (upper command).length ≤ maxCommandLen := hshort _ hsecret
    have hle : command.length ≤ (upper command).length := Py.length_le_length_upper command
    omega
  exact ⟨command, by simp [hcommand, asStr, hne, hlen], hsecret⟩

/-! ## One row -/

theorem boundText_isSome {s : String} (hs : strip s ≠ "") : (boundText (some s)).isSome := by
  simp [boundText, hs]

theorem asStr_acceptable {maxLen : Nat} {s : String} (hs : Acceptable maxLen s) :
    asStr (.str s) maxLen = some s := by
  obtain ⟨hblank, hlen⟩ := hs
  have hne : s ≠ "" := by
    intro h
    rw [h] at hblank
    exact absurd (by decide) hblank
  have hlen : ¬ maxLen < s.length := by omega
  simp [asStr, hne, hlen]

/-- Behind a secret command the value leaves no trace but that there was one. -/
theorem redact_secret {command : String} (h : upper command ∈ secretCommands)
    (value : Option String) :
    redact (some command) value = (boundText value).map fun _ => "<redacted>" := by
  simp [redact, h]

theorem redact_secretField {command : String} {maxLen : Nat} {v v' : Val}
    (hc : upper command ∈ secretCommands) (h : SecretField maxLen v v') :
    redact (some command) (asStr v maxLen) = redact (some command) (asStr v' maxLen) := by
  cases h with
  | same => rfl
  | secret hs hs' =>
    rw [asStr_acceptable hs, asStr_acceptable hs', redact_secret hc, redact_secret hc]
    obtain ⟨b, hb⟩ := Option.isSome_iff_exists.mp (boundText_isSome hs.1)
    obtain ⟨b', hb'⟩ := Option.isSome_iff_exists.mp (boundText_isSome hs'.1)
    rw [hb, hb']
    rfl

/-- The two rows make one event. -/
theorem eventFromEmailRow_secret {row row' : Record} (h : SecretRow row row') :
    eventFromEmailRow row = eventFromEmailRow row' := by
  obtain ⟨command, hread, hsecret⟩ := h.command
  have hcommand : rowCommand row = some (upper command) := by simp [rowCommand, hread]
  have hcommand' : rowCommand row' = some (upper command) := by
    rw [← hcommand, rowCommand, rowCommand, h.rest "command" (by decide) (by decide)]
  have hsecret' : upper (upper command) ∈ secretCommands := by rwa [Py.upper_upper]
  unfold eventFromEmailRow
  dsimp only
  rw [hcommand, hcommand', redact_secretField hsecret' h.argument,
    redact_secretField hsecret' h.text, h.rest "event_type" (by decide) (by decide),
    h.rest "reply_code" (by decide) (by decide), h.rest "is_orig" (by decide) (by decide)]

/-- So the pass cannot tell them apart. -/
theorem zeekStep_secret (flowByUid : Py.Dict String Flow) (s : ZeekPass) {row row' : Record}
    (h : SecretItem (.dict row) (.dict row')) :
    zeekStep flowByUid s row = zeekStep flowByUid s row' := by
  cases h with
  | same => rfl
  | secret h =>
    unfold zeekStep
    rw [eventFromEmailRow_secret h, h.rest "uid" (by decide) (by decide),
      h.rest "ts" (by decide) (by decide), h.rest "protocol" (by decide) (by decide)]

/-! ## The run -/

theorem boundedRecords_secret {items items' : List Val} (h : List.Forall₂ SecretItem items items')
    (limit : Nat) :
    List.Forall₂ (fun row row' => SecretItem (.dict row) (.dict row'))
      (boundedRecords (.list items) limit) (boundedRecords (.list items') limit) := by
  refine List.rel_filterMap ?_ (List.forall₂_take limit h)
  intro item item' hitem
  cases hitem with
  | same =>
    cases item with
    | dict row => exact Option.Rel.some (SecretItem.same _)
    | _ => exact Option.Rel.none
  | secret hrow => exact Option.Rel.some (SecretItem.secret hrow)

theorem zeekPass_secret {logs logs' : Record} (h : SecretVariant logs logs')
    (flowByUid : Py.Dict String Flow) : zeekPass logs flowByUid = zeekPass logs' flowByUid := by
  obtain ⟨rows, rows', hrows, hrows', hitems⟩ := h.email
  unfold zeekPass
  rw [hrows, hrows']
  have hrecords := boundedRecords_secret hitems maxRecords
  refine Fallible.foldlM_congr ?_ hrecords _
  intro s row row' hrow
  exact zeekStep_secret flowByUid s hrow

theorem sslFacts_secret {logs logs' : Record} (h : SecretVariant logs logs') :
    sslFacts logs = sslFacts logs' := by
  rw [sslFacts, sslFacts, h.rest "ssl.log" (by decide)]

/-- **Secret noninterference.** Whatever the flows and the frames, logs that differ only in what a
credential command was given have one normalization: the same sessions in the same order with the
same events and verdicts, or the same exception. -/
theorem normalizeSessions_secret_blind {logs logs' : Record} (h : SecretVariant logs logs')
    (flows : List Flow) (tsharkFrames : Option (List Val)) :
    normalizeSessions logs flows tsharkFrames = normalizeSessions logs' flows tsharkFrames := by
  unfold normalizeSessions readTables
  rw [zeekPass_secret h, sslFacts_secret h]

/-- One `AUTH` row, whose initial response is the parameter. -/
def authLogs (response : String) : Record :=
  [("sm_email.log", .list [.dict [("uid", .str "C1"), ("protocol", .str "smtp"),
    ("event_type", .str "request"), ("command", .str "auth"), ("argument", .str response),
    ("ts", .int 1)]])]

/-- The row is read, and what the session shows of the response is that there was one. -/
theorem auth_response_blind :
    (normalizeSessions (authLogs "PLAIN AGFubgBodW50ZXIy") [Flow.toPort "C1" 25]
        none).toOption.map (fun sessions =>
          sessions.map fun session => session.events.map fun event => event.argument) =
        some [[some "<redacted>"]] ∧
      normalizeSessions (authLogs "PLAIN AGFubgBodW50ZXIy") [Flow.toPort "C1" 25] none =
        normalizeSessions (authLogs "PLAIN AGJvYgBzM2NyM3Q=") [Flow.toPort "C1" 25] none := by
  refine ⟨by decide +kernel, ?_⟩
  refine normalizeSessions_secret_blind ⟨⟨_, _, rfl, rfl, ?_⟩, ?_⟩ [Flow.toPort "C1" 25] none
  · refine List.Forall₂.cons (SecretItem.secret ⟨?_, ?_, ?_, ?_⟩) List.Forall₂.nil
    · exact readsSecret_of_str rfl (by decide)
    · exact SecretField.secret ⟨by decide, by decide⟩ ⟨by decide, by decide⟩
    · exact SecretField.same _
    · intro key hargument _
      have hkey : (key == "argument") = false := beq_eq_false_iff_ne.mpr hargument
      simp only [Record.get, Py.lookup, List.lookup_cons, hkey]
  · intro name hname
    have hkey : (name == "sm_email.log") = false := beq_eq_false_iff_ne.mpr hname
    simp only [getLog, authLogs, List.lookup_cons, hkey]

end Sessions
end Normalize
end SecureMail
