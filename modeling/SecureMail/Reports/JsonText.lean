import SecureMail.Lib.SelfDelimiting
import SecureMail.Reports.Catalog

/-!
# JSON text is read back

The strings that `json.dumps` writes are ASCII: a character is itself, a short escape, one code unit
or a surrogate pair. Whichever it is, its text says where it ends, and the text of a string therefore
too. So the text of the catalog determines the catalog.

This is more than injectivity on the case IDs that the publisher allows. It is for all strings,
since the reader of a catalog may be given any. The characters outside the first plane are the
delicate ones: they are written as two units, and a unit that is read may be the first half of a
pair, so that a reader has to look at what follows before it knows where the character ends.
-/

namespace SecureMail
namespace Reports

open SelfDelimiting (Delimits)

/-! ## One character -/

/-- The value of a hexadecimal digit in lower case. -/
def hexValue (c : Char) : Nat := if c.toNat < 0x61 then c.toNat - 0x30 else c.toNat - 0x57

def unitValue (a b c d : Char) : Nat :=
  hexValue a * 4096 + hexValue b * 256 + hexValue c * 16 + hexValue d

/-- What `json.loads` reads after a backslash. -/
def unescape : Char → Option Char
  | '"' => some '"'
  | '\\' => some '\\'
  | 'n' => some '\n'
  | 'r' => some '\r'
  | 't' => some '\t'
  | 'b' => some '\x08'
  | 'f' => some '\x0c'
  | _ => none

/-- A code unit in hexadecimal. -/
def loadsUnit : List Char → Option (Nat × List Char)
  | '\\' :: 'u' :: a :: b :: c :: d :: rest => some (unitValue a b c d, rest)
  | _ => none

/-- One character of a string as `json.loads` reads it, with what follows. -/
def loadsChar (text : List Char) : Option (Char × List Char) :=
  match loadsUnit text with
  | some (high, rest) =>
    if 0xd800 ≤ high ∧ high < 0xdc00 then
      (loadsUnit rest).map fun low =>
        (Char.ofNat (0x10000 + (high - 0xd800) * 1024 + (low.1 - 0xdc00)), low.2)
    else some (Char.ofNat high, rest)
  | none =>
    match text with
    | '\\' :: c :: rest => (unescape c).map (·, rest)
    | '"' :: _ => none
    | c :: rest => some (c, rest)
    | [] => none

theorem hexValue_hexDigit (n : Nat) : hexValue (hexDigit n) = n % 16 := by
  have hall : ∀ i : Fin 16, hexValue (Nat.digitChar i) = i := by decide
  exact hall ⟨n % 16, Nat.mod_lt _ (by decide)⟩

/-- The four digits of a code unit. -/
theorem unitValue_hexDigit {n : Nat} (h : n < 0x10000) :
    unitValue (hexDigit (n / 4096)) (hexDigit (n / 256)) (hexDigit (n / 16)) (hexDigit n) = n := by
  simp only [unitValue, hexValue_hexDigit]
  omega

theorem loadsUnit_unicodeEscape {n : Nat} (h : n < 0x10000) (s : List Char) :
    loadsUnit (unicodeEscape n ++ s) = some (n, s) := by
  show some (_, s) = _
  rw [unitValue_hexDigit h]

theorem loadsChar_unit {n : Nat} (h : n < 0x10000) (hplain : ¬(0xd800 ≤ n ∧ n < 0xdc00))
    (s : List Char) : loadsChar (unicodeEscape n ++ s) = some (Char.ofNat n, s) := by
  unfold loadsChar
  rw [loadsUnit_unicodeEscape h]
  exact if_neg hplain

theorem loadsChar_pair {m n : Nat} (hm : 0xd800 ≤ m ∧ m < 0xdc00) (hn : n < 0x10000)
    (s : List Char) : loadsChar (unicodeEscape m ++ unicodeEscape n ++ s) =
      some (Char.ofNat (0x10000 + (m - 0xd800) * 1024 + (n - 0xdc00)), s) := by
  unfold loadsChar
  rw [List.append_assoc, loadsUnit_unicodeEscape (by omega)]
  simp only [hm, and_self, if_true, loadsUnit_unicodeEscape hn, Option.map_some]

theorem loadsChar_plain {c : Char} (hbackslash : c ≠ '\\') (hquote : c ≠ '"') (s : List Char) :
    loadsChar (c :: s) = some (c, s) := by
  have hunit : loadsUnit (c :: s) = none := by
    unfold loadsUnit
    split
    · rename_i heq
      exact absurd (List.cons.inj heq).1 hbackslash
    · rfl
  unfold loadsChar
  rw [hunit]
  show (match c :: s with
    | '\\' :: c :: rest => (unescape c).map (·, rest)
    | '"' :: _ => none
    | c :: rest => some (c, rest)
    | [] => none) = _
  split
  · rename_i heq
    exact absurd (List.cons.inj heq).1 hbackslash
  · rename_i heq
    exact absurd (List.cons.inj heq).1 hquote
  · rename_i heq
    obtain ⟨rfl, rfl⟩ := List.cons.inj heq
    rfl
  · rename_i heq
    cases heq

/-- A Unicode character is no surrogate. -/
theorem toNat_scalar (c : Char) : c.toNat < 0xd800 ∨ 0xdfff < c.toNat ∧ c.toNat < 0x110000 := c.valid

/-- **What is written for a character is read as that character, and no further.** It is for every
character and for any text behind it, a digit or a backslash among them. -/
theorem loadsChar_jsonChar (c : Char) (s : List Char) : loadsChar (jsonChar c ++ s) = some (c, s) := by
  have hscalar := toNat_scalar c
  unfold jsonChar
  split_ifs with hquote hbackslash hnewline hreturn htab hbell hfeed hplain hunit
  · rw [hquote]; rfl
  · rw [hbackslash]; rfl
  · rw [hnewline]; rfl
  · rw [hreturn]; rfl
  · rw [htab]; rfl
  · rw [hbell]; rfl
  · rw [hfeed]; rfl
  · exact loadsChar_plain hbackslash hquote s
  · rw [loadsChar_unit hunit (by omega), Char.ofNat_toNat]
  · rw [loadsChar_pair (by omega) (by omega)]
    have hcode : 0x10000 + (0xd800 + (c.toNat - 0x10000) / 1024 - 0xd800) * 1024 +
        (0xdc00 + (c.toNat - 0x10000) % 1024 - 0xdc00) = c.toNat := by omega
    rw [hcode, Char.ofNat_toNat]

theorem delimits_jsonChar : Delimits jsonChar := SelfDelimiting.delimits_of_decode loadsChar loadsChar_jsonChar

/-! ## Strings and the catalog -/

theorem delimits_jsonString : Delimits jsonString := by
  have hquote : ∀ (c : Char) (s t : List Char), jsonChar c ++ s ≠ ['"'] ++ t := by
    intro c s t h
    have hload := loadsChar_jsonChar c s
    rw [h] at hload
    cases hload
  intro a b s t h
  simp only [jsonString, List.cons_append, List.cons.injEq, true_and] at h
  obtain ⟨hchars, hrest⟩ := SelfDelimiting.delimits_list delimits_jsonChar hquote _ _ _ _ h
  exact ⟨String.toList_injective hchars, hrest⟩

theorem delimits_itemText : Delimits CatalogItem.text := by
  intro a b s t h
  unfold CatalogItem.text at h
  simp only [List.append_assoc] at h
  rw [List.append_cancel_left_eq] at h
  obtain ⟨hcase, hafter⟩ := delimits_jsonString _ _ _ _ h
  rw [List.append_cancel_left_eq] at hafter
  obtain ⟨hreport, hend⟩ := delimits_jsonString _ _ _ _ hafter
  rw [List.append_cancel_left_eq] at hend
  refine ⟨?_, hend⟩
  cases a
  cases b
  cases hcase
  cases hreport
  rfl

theorem delimits_reportsText : Delimits reportsText := by
  have hitem : Delimits fun item : CatalogItem => ",\n".toList ++ item.text := by
    intro a b s t h
    simp only [List.append_assoc] at h
    exact delimits_itemText a b s t (List.append_cancel_left h)
  have hclose : ∀ (item : CatalogItem) (s t : List Char),
      ",\n".toList ++ item.text ++ s ≠ "\n  ]".toList ++ t := by
    intro item s t h
    exact absurd (List.cons.inj h).1 (by decide)
  -- The second character tells an empty list from another.
  have hempty : ∀ (item : CatalogItem) (rest : List CatalogItem) (s t : List Char),
      reportsText [] ++ s ≠ reportsText (item :: rest) ++ t := by
    intro item rest s t h
    exact absurd (List.cons.inj (List.cons.inj h).2).1 (by decide)
  intro a b s t h
  cases a with
  | nil =>
    cases b with
    | nil => exact ⟨rfl, List.append_cancel_left h⟩
    | cons item rest => exact absurd h (hempty item rest s t)
  | cons item rest =>
    cases b with
    | nil => exact absurd h.symm (hempty item rest t s)
    | cons item' rest' =>
      simp only [reportsText, List.append_assoc, List.append_cancel_left_eq] at h
      obtain ⟨rfl, hafter⟩ := delimits_itemText _ _ _ _ h
      obtain ⟨rfl, hend⟩ := SelfDelimiting.delimits_list hitem hclose rest rest' s t
        (by simpa only [List.append_assoc] using hafter)
      exact ⟨rfl, hend⟩

/-- **Two catalogs with one text are one catalog**, whatever their case IDs and paths are. -/
theorem catalogText_eq_iff {a b : Catalog} : a.text = b.text ↔ a = b := by
  refine ⟨fun h => ?_, congrArg Catalog.text⟩
  unfold Catalog.text at h
  simp only [List.append_assoc] at h
  rw [List.append_cancel_left_eq] at h
  obtain ⟨hreports, hafter⟩ := delimits_reportsText _ _ _ _ h
  rw [List.append_cancel_left_eq] at hafter
  obtain ⟨hversion, -⟩ := delimits_jsonString _ _ _ _ hafter
  cases a
  cases b
  cases hreports
  cases hversion
  rfl

end Reports
end SecureMail
