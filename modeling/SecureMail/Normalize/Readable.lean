import SecureMail.Normalize.Certificates
import SecureMail.Normalize.Flows
import SecureMail.Normalize.Handshakes
import SecureMail.Normalize.Sessions

/-!
# Values a reader can read

Every reader answers `None` for a value of another type, and most for a value that makes no sense.
What is left is a handful of values a conversion raises on: digits `int` refuses, an integer no
double is near, a time stamp without a date. For each reader there is a condition on the value it is
given, and the reader returns on exactly the values that meet it.

The conditions are stated in terms of the value, so that they can be put together for a row and for
a log without any reader in them. They are kept apart from the readers since a reader answers `none`
for much that is readable in this sense: readable is what does not raise.
-/

namespace SecureMail
namespace Normalize

open Py (Val)
open Fallible (Returns returns_ok returns_pure not_returns_throw returns_bind returns_bind_pure
  returns_map returns_filterMapM_iff)

/-! ## Numbers -/

/-- A string of digits is one `int` takes: each has a decimal value, and there are at most 4300. -/
def IntReadable (value : Val) : Prop :=
  ∀ s, value = .str s → Py.isDigit s = true → (Py.parseInt s).isSome = true

/-- An integer is within the range of a double. Text needs no condition: what spells no number is no
number, and what spells one too large is infinite. -/
def FloatReadable (value : Val) : Prop :=
  ∀ n, value = .int n → (Py.Float.ofInt? n).isSome = true

theorem returns_asInt_iff {value : Val} : Returns (asInt value) ↔ IntReadable value := by
  cases value with
  | str s =>
    have hreadable : IntReadable (.str s) ↔ (Py.isDigit s = true → (Py.parseInt s).isSome = true) := by
      constructor
      · exact fun h => h s rfl
      · rintro h s' hs'
        cases hs'
        exact h
    rw [hreadable]
    show Returns (if Py.isDigit s then _ else _) ↔ _
    by_cases hdigit : Py.isDigit s = true
    · rw [if_pos hdigit]
      cases hparse : Py.parseInt s with
      | none => simp [hdigit, not_returns_throw]
      | some n => simp [returns_pure]
    · rw [if_neg hdigit]
      simp [hdigit, returns_pure]
  | float x =>
    have hreadable : IntReadable (.float x) := by
      intro s hs
      cases hs
    simp only [hreadable, iff_true]
    simp only [asInt]
    cases x.toInt? with
    | none => exact returns_pure _
    | some n => exact returns_pure _
  | _ =>
    refine ⟨fun _ s hs => ?_, fun _ => returns_pure _⟩
    cases hs

theorem returns_asFloat_iff {value : Val} : Returns (asFloat value) ↔ FloatReadable value := by
  delta asFloat FloatReadable
  -- The conversion of an integer stays a variable, for the kernel would evaluate it.
  generalize Py.Float.ofInt? = made
  revert made
  refine id fun made => ?_
  cases value with
  | int n =>
    simp only [Val.int.injEq, forall_eq']
    cases made n with
    | none => simp [not_returns_throw]
    | some x => simp [returns_pure]
  | _ =>
    refine ⟨fun _ n hn => ?_, fun _ => returns_pure _⟩
    cases hn

/-! ## Frames -/

theorem returns_frameEndpoints_iff {asHost : Val → Option String} {frame : Record} :
    Returns (frameEndpoints asHost frame) ↔
      IntReadable (frame.get "tcp.srcport") ∧ IntReadable (frame.get "tcp.dstport") := by
  unfold frameEndpoints
  rw [returns_bind, returns_asInt_iff]
  simp only [returns_bind_pure, returns_asInt_iff]
  constructor
  · rintro ⟨hsrc, hdst⟩
    obtain ⟨port, hport⟩ := returns_asInt_iff.mpr hsrc
    exact ⟨hsrc, hdst port hport⟩
  · exact fun h => ⟨h.1, fun _ _ => h.2⟩

/-- A frame is joined to its flow once its ports are read. -/
theorem returns_matchFrameUid_iff {asHost : Val → Option String} {frame : Record}
    {flows : List Flow} :
    Returns (matchFrameUid asHost frame flows) ↔
      IntReadable (frame.get "tcp.srcport") ∧ IntReadable (frame.get "tcp.dstport") := by
  unfold matchFrameUid
  rw [returns_bind, ← @returns_frameEndpoints_iff asHost frame]
  constructor
  · exact fun h => h.1
  · intro h
    refine ⟨h, ?_⟩
    intro endpoints _
    simp only
    split
    · exact returns_pure _
    · split
      · exact returns_pure _
      · exact returns_pure _

/-! ## Lists, versions and schemes -/

namespace Handshakes

/-- The parts of a comma-joined text. -/
def partsOf (s : String) : List String := ((Py.splitOnChar ',' s).map Py.strip).filter (· ≠ "")

/-- Each of the first items of a list, or parts of a text, is readable. -/
def IntListReadable (value : Val) (limit : Nat) : Prop :=
  (∀ s, value = .str s → ∀ part ∈ (partsOf s).take limit, IntReadable (.str part)) ∧
    ∀ items, value = .list items → ∀ item ∈ items.take limit, IntReadable item

theorem returns_asIntList_iff {value : Val} {limit : Nat} :
    Returns (asIntList value limit) ↔ IntListReadable value limit := by
  cases value with
  | str s =>
    have hreadable : IntListReadable (.str s) limit ↔
        ∀ part ∈ (partsOf s).take limit, IntReadable (.str part) := by
      constructor
      · exact fun h => h.1 s rfl
      · refine fun h => ⟨?_, ?_⟩
        · rintro s' hs'
          cases hs'
          exact h
        · rintro items hitems
          cases hitems
    rw [hreadable]
    show Returns (List.filterMapM _ _) ↔ _
    rw [returns_filterMapM_iff]
    simp only [returns_asInt_iff]
    rfl
  | list items =>
    have hreadable : IntListReadable (.list items) limit ↔
        ∀ item ∈ items.take limit, IntReadable item := by
      constructor
      · exact fun h => h.2 items rfl
      · refine fun h => ⟨?_, ?_⟩
        · rintro s hs
          cases hs
        · rintro items' hitems'
          cases hitems'
          exact h
    rw [hreadable]
    show Returns (List.filterMapM _ _) ↔ _
    rw [returns_filterMapM_iff]
    simp only [returns_asInt_iff]
  | _ =>
    refine ⟨fun _ => ⟨?_, ?_⟩, fun _ => returns_pure _⟩
    · rintro s hs
      cases hs
    · rintro items hitems
      cases hitems

/-- The text spells a version: it is empty or too long for one, or one of the spellings. -/
def spellsVersion (text : String) : Bool :=
  text = "" || 16 < text.length ||
    (versionAliases.lookup (Py.removeChar '.' (Py.removeChar ' ' (Py.lower text)))).isSome ||
    (tlsVersions.map (·.2)).contains text

/-- A version is spelled out, or readable as a number. A spelled version is recognised before any
conversion is tried. -/
def VersionReadable (value : Val) : Prop :=
  ∀ s, value = .str s → spellsVersion (Py.strip s) = false → IntReadable (.str (Py.strip s))

theorem returns_decodeTlsVersion_iff {value : Val} :
    Returns (decodeTlsVersion value) ↔ VersionReadable value := by
  cases value with
  | str s =>
    have hreadable : VersionReadable (.str s) ↔
        (spellsVersion (Py.strip s) = false → IntReadable (.str (Py.strip s))) := by
      constructor
      · exact fun h => h s rfl
      · rintro h s' hs'
        cases hs'
        exact h
    rw [hreadable]
    unfold decodeTlsVersion spellsVersion
    simp only
    by_cases hbounds : Py.strip s = "" ∨ 16 < (Py.strip s).length
    · rw [if_pos hbounds]
      rcases hbounds with hempty | hlong
      · simp [hempty, returns_pure]
      · simp [hlong, returns_pure]
    rw [if_neg hbounds]
    rw [not_or] at hbounds
    cases halias : versionAliases.lookup
        (Py.removeChar '.' (Py.removeChar ' ' (Py.lower (Py.strip s)))) with
    | some version => simp [returns_pure]
    | none =>
      generalize (tlsVersions.map (·.2)).contains (Py.strip s) = named
      cases named with
      | true => simp [returns_pure]
      | false =>
        rw [if_neg Bool.false_ne_true, returns_bind_pure, returns_asInt_iff]
        simp [hbounds.1, Nat.not_lt.mp hbounds.2]
  | _ =>
    show Returns (asInt _ >>= _) ↔ _
    rw [returns_bind_pure, returns_asInt_iff]
    refine ⟨fun _ s hs => ?_, fun _ s hs => ?_⟩
    · cases hs
    · cases hs

/-- The text of a scheme, as it is looked up. -/
def schemeText (s : String) : String := Py.replaceChar '-' '_' (Py.lower (Py.strip s))

/-- A scheme in digits is readable as a number. -/
def SchemeReadable (value : Val) : Prop :=
  ∀ s, value = .str s → Py.strip s ≠ "" → (Py.strip s).length ≤ maxNameLen →
    Py.startsWith (schemeText s) "0x" = false → IntReadable (.str (schemeText s))

theorem returns_decodeSignatureScheme_iff {value : Val} :
    Returns (decodeSignatureScheme value) ↔ SchemeReadable value := by
  cases value with
  | str s =>
    have hreadable : SchemeReadable (.str s) ↔
        (Py.strip s ≠ "" → (Py.strip s).length ≤ maxNameLen →
          Py.startsWith (schemeText s) "0x" = false → IntReadable (.str (schemeText s))) := by
      constructor
      · exact fun h => h s rfl
      · rintro h s' hs'
        cases hs'
        exact h
    rw [hreadable]
    unfold decodeSignatureScheme schemeText
    simp only
    -- From here on only the two texts count, not how they are made.
    generalize Py.strip s = text
    generalize Py.replaceChar '-' '_' (Py.lower text) = lowered
    by_cases hbounds : text = "" ∨ maxNameLen < text.length
    · rw [if_pos hbounds]
      refine ⟨fun _ hne hle => ?_, fun _ => returns_pure none⟩
      rcases hbounds with hempty | hlong
      · exact absurd hempty hne
      · omega
    rw [if_neg hbounds]
    rw [not_or, Nat.not_lt] at hbounds
    simp only [ne_eq, hbounds.1, not_false_eq_true, hbounds.2, true_implies]
    cases hhex : Py.startsWith lowered "0x" with
    | true =>
      rw [if_pos rfl]
      refine ⟨fun _ hfalse => Bool.noConfusion hfalse, fun _ => ?_⟩
      cases Py.parseHex lowered with
      | none => exact returns_pure (some lowered)
      | some n => exact returns_pure (some ((signatureSchemes.lookup n).getD lowered))
    | false =>
      rw [if_neg Bool.false_ne_true]
      simp only [true_implies]
      rw [← returns_asInt_iff]
      show _ ↔ Returns (if Py.isDigit lowered then _ else _)
      cases Py.isDigit lowered with
      | true =>
        rw [if_pos rfl, if_pos rfl]
        cases Py.parseInt lowered with
        | none => simp [not_returns_throw]
        | some n => simp [returns_pure]
      | false =>
        rw [if_neg Bool.false_ne_true, if_neg Bool.false_ne_true]
        simp [returns_pure]
  | _ =>
    show Returns (asInt _ >>= _) ↔ _
    rw [returns_bind_pure, returns_asInt_iff]
    refine ⟨fun _ s hs => ?_, fun _ s hs => ?_⟩
    · cases hs
    · cases hs

end Handshakes

/-! ## Time stamps -/

namespace Certificates

/-- A number that is not negative has a date; a string that is a number has a year, for of a string
without a date the error is caught. -/
structure TimeReadable (value : Val) : Prop where
  int : ∀ n, value = .int n → 0 ≤ n → ∃ x, Py.Float.ofInt? n = some x ∧ x.Dated
  float : ∀ x, value = .float x → x.lt (.ofNat 0) = false → x.Dated
  str : ∀ s, value = .str s → ∀ x, Py.parseFloat s = some x → x.HasYear

theorem returns_fromTimestamp_iff {x : Py.Float} : Returns (fromTimestamp x) ↔ x.Dated := by
  rw [← Py.Datetime.fromTimestamp_eq_ok_iff]
  unfold fromTimestamp
  cases Py.Datetime.fromTimestamp x with
  | ok t => simp [returns_pure]
  | error e => simp [not_returns_throw]

theorem timeReadable_int {n : Int} :
    TimeReadable (.int n) ↔ (0 ≤ n → ∃ x, Py.Float.ofInt? n = some x ∧ x.Dated) := by
  refine ⟨fun h => h.int n rfl, fun h => ⟨?_, ?_, ?_⟩⟩
  · intro n' hn'
    cases hn'
    exact h
  · intro x hx
    cases hx
  · intro s hs
    cases hs

theorem timeReadable_float {x : Py.Float} :
    TimeReadable (.float x) ↔ (x.lt (.ofNat 0) = false → x.Dated) := by
  refine ⟨fun h => h.float x rfl, fun h => ⟨?_, ?_, ?_⟩⟩
  · intro n hn
    cases hn
  · intro x' hx'
    cases hx'
    exact h
  · intro s hs
    cases hs

theorem timeReadable_str {s : String} :
    TimeReadable (.str s) ↔ ∀ x, Py.parseFloat s = some x → x.HasYear := by
  refine ⟨fun h => h.str s rfl, fun h => ⟨?_, ?_, ?_⟩⟩
  · intro n hn
    cases hn
  · intro x hx
    cases hx
  · intro s' hs'
    cases hs'
    exact h

theorem returns_epochToDatetime_iff {value : Val} :
    Returns (epochToDatetime value) ↔ TimeReadable value := by
  cases value with
  | int n =>
    rw [timeReadable_int]
    unfold epochToDatetime
    simp only
    by_cases hneg : n < 0
    · rw [if_pos hneg]
      refine ⟨fun _ hle => ?_, fun _ => returns_pure _⟩
      omega
    rw [if_neg hneg]
    simp only [Int.not_lt.mp hneg, true_implies]
    cases Py.Float.ofInt? n with
    | none => simp [not_returns_throw]
    | some x =>
      simp only [returns_map, returns_fromTimestamp_iff]
      simp
  | float x =>
    rw [timeReadable_float]
    unfold epochToDatetime
    simp only
    by_cases hneg : x.lt (.ofNat 0) = true
    · rw [if_pos hneg]
      simp [hneg, returns_pure]
    · rw [if_neg hneg, returns_map, returns_fromTimestamp_iff]
      simp [hneg]
  | str s =>
    rw [timeReadable_str]
    unfold epochToDatetime
    simp only
    cases Py.parseFloat s with
    | none => simp [returns_pure]
    | some x =>
      have hyear := Py.Datetime.fromTimestamp_value_iff (x := x)
      simp only [Option.some.injEq, forall_eq']
      cases hstamp : Py.Datetime.fromTimestamp x with
      | ok t =>
        rw [hstamp] at hyear
        simp only [reduceCtorEq, or_self, false_iff, not_not] at hyear
        simp [hyear, returns_pure]
      | error e =>
        rw [hstamp] at hyear
        cases e with
        | value =>
          simp only [Except.error.injEq, reduceCtorEq, or_self, false_iff, not_not] at hyear
          simp [hyear, returns_pure]
        | overflow =>
          simp only [true_or, true_iff] at hyear
          simp [hyear, not_returns_throw]
        | os =>
          simp only [or_true, true_iff] at hyear
          simp [hyear, not_returns_throw]
  | _ =>
    refine ⟨fun _ => ⟨?_, ?_, ?_⟩, fun _ => returns_pure _⟩
    · intro n hn
      cases hn
    · intro x hx
      cases hx
    · intro s hs
      cases hs

/-- What is read of a time stamp is in UTC. -/
theorem epochToDatetime_offset {value : Val} {t : Py.Datetime}
    (h : epochToDatetime value = .ok (some t)) : t.offset = some 0 := by
  have hread : ∀ x : Py.Float, fromTimestamp x = .ok t → t.offset = some 0 := by
    intro x hx
    unfold fromTimestamp at hx
    cases hstamp : Py.Datetime.fromTimestamp x with
    | ok t' =>
      rw [hstamp] at hx
      obtain rfl := Fallible.pure_eq_ok.mp hx
      exact Py.Datetime.fromTimestamp_offset hstamp
    | error e =>
      rw [hstamp] at hx
      cases hx
  have hmap : ∀ x : Py.Float, some <$> fromTimestamp x = .ok (some t) → t.offset = some 0 := by
    intro x hx
    cases hfrom : fromTimestamp x with
    | ok t' =>
      rw [hfrom] at hx
      obtain rfl : t' = t := Option.some.inj (Except.ok.inj hx)
      exact hread x hfrom
    | error e =>
      rw [hfrom] at hx
      cases hx
  cases value with
  | int n =>
    unfold epochToDatetime at h
    simp only at h
    split at h
    · cases h
    · cases hfloat : Py.Float.ofInt? n with
      | none =>
        rw [hfloat] at h
        cases h
      | some x =>
        rw [hfloat] at h
        exact hmap x h
  | float x =>
    unfold epochToDatetime at h
    simp only at h
    split at h
    · cases h
    · exact hmap x h
  | str s =>
    unfold epochToDatetime at h
    simp only at h
    cases hparse : Py.parseFloat s with
    | none =>
      rw [hparse] at h
      cases h
    | some x =>
      rw [hparse] at h
      simp only at h
      cases hstamp : Py.Datetime.fromTimestamp x with
      | ok t' =>
        rw [hstamp] at h
        obtain rfl : t' = t := Option.some.inj (Fallible.pure_eq_ok.mp h)
        exact Py.Datetime.fromTimestamp_offset hstamp
      | error e =>
        rw [hstamp] at h
        cases e <;> cases h
  | _ => cases h

end Certificates

end Normalize
end SecureMail
