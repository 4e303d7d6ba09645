import SecureMail.Lib.Utf16
import Mathlib.Data.Nat.Digits.Defs
import Mathlib.Data.List.Sort

/-!
# Evidence text on the page

What a capture says is shown twice: by the HTML and PDF reports, through `forensic_text`, and by the
dashboard, through `render_forensic_text`. Both write out, as visible text, the characters that would
steer the page or the reading order. Each has its own table of them, and the two tables differ in one
character.

The reports work on Python strings, which are sequences of code points; the dashboard on strings of
16-bit units. A text is a list of code points here, lone surrogates among them, and the dashboard gets
its units.

The comparison of the two views needs a common measure, and that is places: the positions of the
code points that a view escapes, in the text before any escaping. So the two may write an escape as
they like. What must not happen is said of the output of each: nothing in it steers. A character
outside the first plane is one code point in one view and two units in the other, and a lone
surrogate is both; the library on UTF-16 is there for these.
-/

namespace SecureMail
namespace Reports

open Utf16

/-- The digit of value `d`. -/
def upperHexDigit (d : Nat) : Char := if d < 10 then Char.ofNat (48 + d) else Char.ofNat (55 + d)

/-- `f"{code:04X}"`, which is `code.toString(16).toUpperCase().padStart(4, "0")`. -/
def hex4 (code : Nat) : List CodePoint :=
  (((Nat.digits 16 code).reverse.map upperHexDigit).leftpad 4 '0').map CodePoint.ofChar

/-! ## The reports -/

/-- `_BIDI_CODEPOINTS`. -/
def bidiCodepoints : List Nat := [0x200E, 0x200F] ++ List.range' 0x202A 5 ++ List.range' 0x2066 4

def isProhibited (char : CodePoint) : Bool :=
  decide (char.val < 32 ∨ (127 ≤ char.val ∧ char.val ≤ 159) ∨ char.val ∈ bidiCodepoints)

/-- `forensic_text`, of a string. -/
def forensicText (text : List CodePoint) : List CodePoint :=
  text.flatMap fun char =>
    if isProhibited char then literal "\\u" ++ hex4 char.val else [char]

/-! ## The dashboard -/

def namedCodePoints : List (Nat × String) := [
  (0x00, "NULL"),
  (0x07, "BELL"),
  (0x08, "BACKSPACE"),
  (0x09, "TAB"),
  (0x0a, "LINE FEED"),
  (0x0d, "CARRIAGE RETURN"),
  (0x1b, "ESCAPE"),
  (0x7f, "DELETE"),
  (0x061c, "ARABIC LETTER MARK"),
  (0x200e, "LEFT-TO-RIGHT MARK"),
  (0x200f, "RIGHT-TO-LEFT MARK"),
  (0x202a, "LEFT-TO-RIGHT EMBEDDING"),
  (0x202b, "RIGHT-TO-LEFT EMBEDDING"),
  (0x202c, "POP DIRECTIONAL FORMATTING"),
  (0x202d, "LEFT-TO-RIGHT OVERRIDE"),
  (0x202e, "RIGHT-TO-LEFT OVERRIDE"),
  (0x2066, "LEFT-TO-RIGHT ISOLATE"),
  (0x2067, "RIGHT-TO-LEFT ISOLATE"),
  (0x2068, "FIRST STRONG ISOLATE"),
  (0x2069, "POP DIRECTIONAL ISOLATE")]

def shouldEscape (codePoint : CodePoint) : Bool :=
  decide (codePoint.val < 0x20 ∨ (0x7f ≤ codePoint.val ∧ codePoint.val ≤ 0x9f) ∨
    codePoint.val ∈ namedCodePoints.map Prod.fst)

/-- The text that stands for an escaped code point. -/
def escapeText (codePoint : CodePoint) : List CodePoint :=
  let name := (namedCodePoints.lookup codePoint.val).getD "CONTROL"
  literal "⟦U+" ++ hex4 codePoint.val ++ literal (" " ++ name ++ "⟧")

/-- `render_forensic_text`. -/
def renderForensicText (value : List CodeUnit) : List CodeUnit :=
  (points value).flatMap fun character =>
    if shouldEscape character then encode (escapeText character) else units character

/-! ## What may not reach the page -/

/-- The bidirectional controls of Unicode. -/
def isBidiControl (c : CodePoint) : Bool :=
  decide (c.val = 0x061C ∨ c.val = 0x200E ∨ c.val = 0x200F ∨
    (0x202A ≤ c.val ∧ c.val ≤ 0x202E) ∨ (0x2066 ≤ c.val ∧ c.val ≤ 0x2069))

/-- A C0 or a C1 control, or a bidirectional control. -/
def steers (c : CodePoint) : Bool :=
  decide (c.val < 0x20) || decide (0x80 ≤ c.val ∧ c.val ≤ 0x9F) || isBidiControl c

def arabicLetterMark : CodePoint := ⟨0x061C, by decide⟩

/-! ## The two tables -/

theorem mem_bidiCodepoints_iff (n : Nat) :
    n ∈ bidiCodepoints ↔
      n = 0x200E ∨ n = 0x200F ∨ (0x202A ≤ n ∧ n ≤ 0x202E) ∨ (0x2066 ≤ n ∧ n ≤ 0x2069) := by
  simp only [bidiCodepoints, List.mem_append, List.mem_cons, List.not_mem_nil, List.mem_range'_1,
    or_false]
  omega

/-- The named controls are among those that are escaped by range. -/
theorem mem_named_iff (n : Nat) :
    (n < 0x20 ∨ (0x7f ≤ n ∧ n ≤ 0x9f) ∨ n ∈ namedCodePoints.map Prod.fst) ↔
      n < 32 ∨ (127 ≤ n ∧ n ≤ 159) ∨ n ∈ bidiCodepoints ∨ n = 0x061c := by
  rw [mem_bidiCodepoints_iff]
  simp only [namedCodePoints, List.map_cons, List.map_nil, List.mem_cons, List.not_mem_nil,
    or_false]
  omega

/-- **The dashboard's table is the reports' one and the Arabic letter mark.** The two tables are
written down apart, and nothing in the code compares them. -/
theorem shouldEscape_iff (c : CodePoint) :
    shouldEscape c = true ↔ isProhibited c = true ∨ c = arabicLetterMark := by
  have hmark : c = arabicLetterMark ↔ c.val = 0x061C := by
    cases c
    simp [arabicLetterMark]
  rw [shouldEscape, isProhibited, decide_eq_true_eq, decide_eq_true_eq, mem_named_iff, hmark]
  tauto

theorem steers_iff (c : CodePoint) :
    steers c = true ↔
      c.val < 0x20 ∨ (0x80 ≤ c.val ∧ c.val ≤ 0x9F) ∨ c.val ∈ bidiCodepoints ∨ c.val = 0x061C := by
  rw [mem_bidiCodepoints_iff]
  simp only [steers, isBidiControl, Bool.or_eq_true, decide_eq_true_eq]
  omega

theorem shouldEscape_of_steers {c : CodePoint} (hc : steers c = true) : shouldEscape c = true := by
  rw [steers_iff] at hc
  rw [shouldEscape, decide_eq_true_eq, mem_named_iff]
  rcases hc with hC0 | hC1 | hbidi
  · exact Or.inl hC0
  · exact Or.inr (Or.inl (by omega))
  · exact Or.inr (Or.inr hbidi)

theorem belowSurrogates_shouldEscape : BelowSurrogates shouldEscape := by
  intro c hc
  rw [shouldEscape, decide_eq_true_eq, mem_named_iff, mem_bidiCodepoints_iff] at hc
  omega

/-! ## The escapes -/

theorem steers_ofChar_upperHexDigit {d : Nat} (hd : d < 16) :
    steers (CodePoint.ofChar (upperHexDigit d)) = false := by
  have hall : ∀ d < 16, steers (CodePoint.ofChar (upperHexDigit d)) = false := by decide
  exact hall d hd

theorem steers_hex4 (code : Nat) : ∀ c ∈ hex4 code, steers c = false := by
  intro c hc
  obtain ⟨char, hchar, rfl⟩ := List.mem_map.mp hc
  rw [List.leftpad, List.mem_append] at hchar
  rcases hchar with hpad | hdigit
  · rw [(List.mem_replicate.mp hpad).2]
    decide
  · obtain ⟨d, hd, rfl⟩ := List.mem_map.mp hdigit
    exact steers_ofChar_upperHexDigit (Nat.digits_lt_base (by decide) (List.mem_reverse.mp hd))

/-- No name of the table needs an escape of its own. -/
theorem steers_name :
    ∀ name ∈ "CONTROL" :: namedCodePoints.map Prod.snd, ∀ c ∈ literal (" " ++ name ++ "⟧"),
      steers c = false := by
  decide +kernel

theorem lookup_mem {n : Nat} {name : String} (h : namedCodePoints.lookup n = some name) :
    name ∈ namedCodePoints.map Prod.snd := by
  obtain ⟨l₁, l₂, hsplit, -⟩ := List.lookup_eq_some_iff.mp h
  rw [hsplit]
  simp

theorem steers_escapeText (codePoint : CodePoint) : ∀ c ∈ escapeText codePoint, steers c = false := by
  intro c hc
  rw [escapeText, List.mem_append, List.mem_append] at hc
  rcases hc with (hopen | hhex) | hname
  · have hall : ∀ c ∈ literal "⟦U+", steers c = false := by decide +kernel
    exact hall c hopen
  · exact steers_hex4 codePoint.val c hhex
  · refine steers_name _ ?_ c hname
    cases hfound : namedCodePoints.lookup codePoint.val with
    | none => exact List.mem_cons_self
    | some name => exact List.mem_cons_of_mem _ (lookup_mem hfound)

/-! ## What the two views show -/

theorem mem_forensicText {text : List CodePoint} {c : CodePoint} (hc : c ∈ forensicText text) :
    steers c = false ∨ (c ∈ text ∧ isProhibited c = false) := by
  obtain ⟨char, hchar, hmem⟩ := List.mem_flatMap.mp hc
  by_cases hprohibited : isProhibited char = true
  · rw [if_pos hprohibited, List.mem_append] at hmem
    refine Or.inl ?_
    rcases hmem with hopen | hhex
    · have hall : ∀ c ∈ literal "\\u", steers c = false := by decide +kernel
      exact hall c hopen
    · exact steers_hex4 char.val c hhex
  · rw [if_neg hprohibited, List.mem_singleton] at hmem
    subst hmem
    exact Or.inr ⟨hchar, by simpa using hprohibited⟩

theorem mem_forensicText_of_not_prohibited {text : List CodePoint} {c : CodePoint} (hc : c ∈ text)
    (hshown : isProhibited c = false) : c ∈ forensicText text := by
  refine List.mem_flatMap.mpr ⟨c, hc, ?_⟩
  rw [hshown]
  exact List.mem_singleton_self c

theorem steers_of_le {c : CodePoint} (hc : 0xD800 ≤ c.val) : steers c = false := by
  by_contra hne
  have hlt := belowSurrogates_shouldEscape c (shouldEscape_of_steers (by simpa using hne))
  omega

/-- The units of a text that steers nothing steer nothing. -/
theorem steers_units {c : CodePoint} (hc : steers c = false) {u : CodeUnit} (hu : u ∈ units c) :
    steers (single u) = false := by
  rcases of_mem_units hu with heq | hle
  · rwa [heq]
  · exact steers_of_le hle

theorem steers_renderForensicText (value : List CodeUnit) :
    ∀ c ∈ points (renderForensicText value), steers c = false := by
  intro c hc
  rcases of_mem_points hc with ⟨u, hu, rfl⟩ | hle
  · obtain ⟨character, -, hmem⟩ := List.mem_flatMap.mp hu
    by_cases hescaped : shouldEscape character = true
    · rw [if_pos hescaped] at hmem
      obtain ⟨shown, hshown, hunit⟩ := List.mem_flatMap.mp hmem
      exact steers_units (steers_escapeText character shown hshown) hunit
    · rw [if_neg hescaped] at hmem
      refine steers_units ?_ hmem
      by_contra hne
      exact hescaped (shouldEscape_of_steers (by simpa using hne))
  · exact steers_of_le (by omega)

/-- **What the reports show steers the reading order exactly by an Arabic letter mark.** Everything
else that steers is in the table of the reports. -/
theorem steers_forensicText_iff (text : List CodePoint) :
    (∀ c ∈ forensicText text, steers c = false) ↔ arabicLetterMark ∉ text := by
  constructor
  · intro hall hmem
    have hshown := mem_forensicText_of_not_prohibited hmem (by decide)
    exact absurd (hall _ hshown) (by decide)
  · intro hmark c hc
    rcases mem_forensicText hc with hplain | ⟨hmem, hshown⟩
    · exact hplain
    · by_contra hne
      have hescape := shouldEscape_of_steers (c := c) (by simpa using hne)
      rcases (shouldEscape_iff c).mp hescape with hprohibited | rfl
      · exact absurd hprohibited (by simp [hshown])
      · exact hmark hmem

/-! ## The two views -/

/-- The places at which the reports escape. -/
def reportPlaces (text : List CodePoint) : List Nat := places isProhibited text

/-- The places at which the dashboard escapes. -/
def dashboardPlaces (value : List CodeUnit) : List Nat := places shouldEscape (points value)

/-- **The two views escape the same text, and show none that steers the reading order, exactly where
there is no Arabic letter mark in it.** -/
theorem presentations_agree_iff (text : List CodePoint) :
    (reportPlaces text = dashboardPlaces (encode text) ∧
        (∀ c ∈ forensicText text, steers c = false) ∧
        ∀ c ∈ points (renderForensicText (encode text)), steers c = false) ↔
      arabicLetterMark ∉ text := by
  have hdashboard : dashboardPlaces (encode text) = places shouldEscape text :=
    places_points belowSurrogates_shouldEscape text
  constructor
  · rintro ⟨-, hreport, -⟩
    exact (steers_forensicText_iff text).mp hreport
  · intro hmark
    refine ⟨?_, (steers_forensicText_iff text).mpr hmark, steers_renderForensicText _⟩
    rw [hdashboard]
    refine places_congr fun c hc => ?_
    rw [Bool.eq_iff_iff, shouldEscape_iff]
    constructor
    · exact Or.inl
    · rintro (hprohibited | rfl)
      · exact hprohibited
      · exact absurd hc hmark

/-- An address with an Arabic letter mark: the dashboard writes the mark out, the reports show it. -/
theorem arabic_letter_mark_shown :
    ¬(reportPlaces (literal "a" ++ [arabicLetterMark]) =
        dashboardPlaces (encode (literal "a" ++ [arabicLetterMark])) ∧
      (∀ c ∈ forensicText (literal "a" ++ [arabicLetterMark]), steers c = false) ∧
      ∀ c ∈ points (renderForensicText (encode (literal "a" ++ [arabicLetterMark]))),
        steers c = false) := by
  decide +kernel

end Reports
end SecureMail
