import SecureMail.Py.Unicode
import Mathlib.Data.List.Infix
import Mathlib.Data.Nat.Bitwise
import Mathlib.Data.List.DropRight

/-!
# `str`

The methods of `str` that the normalizers and the policies call. A Python string is a Lean
`String`: both are sequences of code points, and `len` is `String.length`. A lone surrogate, which
Python has and Lean has not, is left out.

Three facts are wanted downstream. `upper` is idempotent, so a command that has been normalized once
reads the same when a consumer normalizes it again; it neither makes nor removes a comma, so a joined
list of commands stays one; and it makes no blank, so a text that is not blank has words in upper
case as well. None of them is plain, since a character may become several by it, and each rests on a
check of the whole table.
-/

namespace SecureMail
namespace Py

/-- `s.upper()`. -/
def upper (s : String) : String := String.ofList (s.toList.flatMap upperChar)

/-- The word goes on: the next character that is not passed over has case. -/
def wordGoesOn (cs : List Char) : Bool := (cs.find? (!isCaseIgnorable ·)).any isCased

/-- `handle_capital_sigma`: the form of a `Σ`, by what is before it, backwards, and after it. -/
def lowerSigma (before after : List Char) : Char :=
  if wordGoesOn before && !wordGoesOn after then 'ς' else 'σ'

/-- The lower-case forms of the characters after `before`, which is read backwards. -/
def lowerAfter (before : List Char) : List Char → List Char
  | [] => []
  | c :: rest =>
      (if c = 'Σ' then [lowerSigma before rest] else lowerChar c) ++ lowerAfter (c :: before) rest

/-- `s.lower()`. -/
def lower (s : String) : String := String.ofList (lowerAfter [] s.toList)

/-- Without a `Σ` each character goes to its own form. -/
theorem lowerAfter_of_no_sigma {before cs : List Char} (h : 'Σ' ∉ cs) :
    lowerAfter before cs = cs.flatMap lowerChar := by
  induction cs generalizing before with
  | nil => rfl
  | cons c rest ih =>
    rw [List.mem_cons, not_or] at h
    rw [lowerAfter, if_neg fun heq => h.1 heq.symm, ih h.2, List.flatMap_cons]

/-- `s.strip()`. -/
def strip (s : String) : String :=
  String.ofList ((s.toList.dropWhile isSpaceChar).rdropWhile isSpaceChar)

/-- `s.split()`: the maximal runs of characters that are not white space. -/
def split (s : String) : List String :=
  ((s.toList.splitOnP isSpaceChar).filter (!·.isEmpty)).map String.ofList

/-- `s.split(sep)`, for a separator of one character. -/
def splitOnChar (sep : Char) (s : String) : List String :=
  (s.toList.splitOn sep).map String.ofList

theorem splitOnChar_ofList (sep : Char) (cs : List Char) :
    splitOnChar sep (String.ofList cs) = (cs.splitOn sep).map String.ofList := by
  rw [splitOnChar, String.toList_ofList]

/-- `sep.join(parts)`. -/
def join (sep : String) (parts : List String) : String :=
  String.ofList (List.intercalate sep.toList (parts.map String.toList))

/-- `s.startswith(p)`. -/
def startsWith (s p : String) : Bool := p.toList.isPrefixOf s.toList

/-- `s.endswith(p)`. -/
def endsWith (s p : String) : Bool := p.toList.isSuffixOf s.toList

/-- `s.removeprefix(p)`. -/
def removePrefix (s p : String) : String :=
  if startsWith s p then String.ofList (s.toList.drop p.length) else s

/-- `s.removesuffix(p)`. -/
def removeSuffix (s p : String) : String :=
  if endsWith s p then String.ofList (s.toList.take (s.length - p.length)) else s

/-- `p in s`. -/
def isIn (p s : String) : Bool := decide (p.toList <:+: s.toList)

/-- `s[:n]`. -/
def takeChars (n : Nat) (s : String) : String := String.ofList (s.toList.take n)

/-- `s[n:]`. -/
def dropChars (n : Nat) (s : String) : String := String.ofList (s.toList.drop n)

/-- `s.replace(a, b)`, for one character and its one-character replacement. -/
def replaceChar (a b : Char) (s : String) : String :=
  String.ofList (s.toList.map fun c => if c = a then b else c)

/-- `s.replace(a, "")`, for one character. -/
def removeChar (a : Char) (s : String) : String := String.ofList (s.toList.filter (· ≠ a))

/-- `s.isdigit()`. -/
def isDigit (s : String) : Bool := !s.toList.isEmpty && s.toList.all isDigitChar

/-- The truth value of a string. -/
def truthy (s : String) : Bool := s ≠ ""

/-! ## `upper` is idempotent

No image of the upper-case tables is itself mapped further. There are some fourteen hundred of
either, so the two sets are compared as bit masks: one conjunction of two numbers. -/

@[simp] theorem upper_toList (s : String) : (upper s).toList = s.toList.flatMap upperChar := by
  simp [upper]

/-- The set of code points in a list, as the bits of a number. -/
def mask (l : List Nat) : Nat := l.foldr (fun n m => 2 ^ n ||| m) 0

@[simp] theorem testBit_mask {l : List Nat} {n : Nat} : (mask l).testBit n = true ↔ n ∈ l := by
  induction l with
  | nil => simp [mask]
  | cons a rest ih =>
    rw [show mask (a :: rest) = 2 ^ a ||| mask rest from rfl, Nat.testBit_or, Bool.or_eq_true,
      Nat.testBit_two_pow, ih, List.mem_cons, decide_eq_true_eq, eq_comm]

/-- Lists whose masks share no bit share no element. -/
theorem disjoint_of_mask {l l' : List Nat} (h : mask l &&& mask l' = 0) {n : Nat}
    (hn : n ∈ l) (hn' : n ∈ l') : False := by
  have hbit : (mask l &&& mask l').testBit n = true := by
    simp [Nat.testBit_and, testBit_mask.mpr hn, testBit_mask.mpr hn']
  simp [h] at hbit

/-- The points a row covers, and their images. -/
def Stride.points (s : Stride) : List Nat :=
  (List.range ((s.2.1 - s.1) / s.2.2.1 + 1)).map fun k => s.1 + k * s.2.2.1

def Stride.images (s : Stride) : List Nat :=
  (List.range ((s.2.1 - s.1) / s.2.2.1 + 1)).map fun k => s.2.2.2 + k * s.2.2.1

/-- Every code point `upperChar` changes. -/
def upperDomain : List Nat :=
  (List.range 26).map (97 + ·) ++ upperSpecial.map (·.1) ++ upperStrides.flatMap Stride.points

/-- Every code point `upperChar` changes one into. -/
def upperImages : List Nat :=
  (List.range 26).map (65 + ·) ++ upperSpecial.flatMap (·.2) ++ upperStrides.flatMap Stride.images

/-- What is checked of the tables, once for all that follows: no image is mapped further, an image is
a character and neither a comma nor white space, the rows cover their points, and none is empty. -/
theorem upperTables_checked :
    mask upperDomain &&& mask upperImages = 0 ∧
    (∀ n ∈ upperImages, n.isValidChar ∧ n ≠ 44 ∧
      (spaceRanges.any fun r => r.1 ≤ n && n ≤ r.2) = false) ∧
    (∀ n ∈ upperDomain, n < 128 → 97 ≤ n ∧ n ≤ 122) ∧
    (∀ s ∈ upperStrides, ∀ n ∈ s.points, s.covers n = true) ∧
    ∀ e ∈ upperSpecial, e.2 ≠ [] := by
  decide +kernel

theorem upperDomain_images_disjoint : mask upperDomain &&& mask upperImages = 0 :=
  upperTables_checked.1

theorem upperImages_valid {n : Nat} (hn : n ∈ upperImages) : n.isValidChar :=
  (upperTables_checked.2.1 n hn).1

theorem Stride.step_of_covers {s : Stride} {cp : Nat} (hc : s.covers cp = true) :
    ∃ k ∈ List.range ((s.2.1 - s.1) / s.2.2.1 + 1), cp = s.1 + k * s.2.2.1 := by
  simp only [Stride.covers, Bool.and_eq_true, decide_eq_true_eq, beq_iff_eq] at hc
  obtain ⟨⟨hlo, hhi⟩, hmod⟩ := hc
  refine ⟨(cp - s.1) / s.2.2.1, ?_, ?_⟩
  · exact List.mem_range.mpr (Nat.lt_succ_of_le (Nat.div_le_div_right (by omega)))
  · rw [Nat.div_mul_cancel (Nat.dvd_of_mod_eq_zero hmod)]; omega

theorem toNat_ofNat {n : Nat} (h : n.isValidChar) : (Char.ofNat n).toNat = n := by
  have hofNat : Char.ofNat n = Char.ofNatAux n h := dif_pos h
  rw [hofNat]
  rfl

/-- A code point outside the domain is left alone. -/
theorem upperChar_of_not_mem {c : Char} (h : c.toNat ∉ upperDomain) : upperChar c = [c] := by
  simp only [upperDomain, List.mem_append, List.mem_map, List.mem_flatMap, List.mem_range,
    not_or, not_exists, not_and] at h
  obtain ⟨⟨hlow, hspecial⟩, hstride⟩ := h
  unfold upperChar
  split
  · rw [if_neg]
    rintro ⟨hlo, hhi⟩
    exact hlow (c.toNat - 97) (by omega) (by omega)
  · have hnone : upperSpecial.lookup c.toNat = none := by
      rw [List.lookup_eq_none_iff]
      intro e he
      simpa using fun hq => hspecial e he hq.symm
    have hfind : upperStrides.find? (·.covers c.toNat) = none := by
      rw [List.find?_eq_none]
      intro s hs hc
      obtain ⟨k, hk, hcp⟩ := Stride.step_of_covers hc
      exact hstride s hs (List.mem_map.mpr ⟨k, hk, hcp.symm⟩)
    simp [hnone, mapThrough, hfind]

/-- What `upperChar` answers is the character itself or an image. -/
theorem mem_upperChar {c d : Char} (hd : d ∈ upperChar c) :
    d = c ∧ c.toNat ∉ upperDomain ∨ ∃ n ∈ upperImages, d = Char.ofNat n := by
  by_cases hdom : c.toNat ∈ upperDomain
  swap
  · rw [upperChar_of_not_mem hdom, List.mem_singleton] at hd
    exact Or.inl ⟨hd, hdom⟩
  refine Or.inr ?_
  unfold upperChar at hd
  split at hd
  · rename_i hascii
    rw [List.mem_singleton] at hd
    split at hd
    · rename_i hlow
      refine ⟨c.toNat - 32, ?_, hd⟩
      refine List.mem_append_left _ (List.mem_append_left _ ?_)
      exact List.mem_map.mpr ⟨c.toNat - 97, List.mem_range.mpr (by omega), by omega⟩
    · rename_i hlow
      -- Below U+0080 the domain is the lower-case letters.
      have hsmall := upperTables_checked.2.2.1
      exact absurd (hsmall _ hdom hascii) hlow
  · split at hd
    · rename_i image hl
      obtain ⟨n, hn, rfl⟩ := List.mem_map.mp hd
      obtain ⟨l₁, l₂, hsplit, -⟩ := List.lookup_eq_some_iff.mp hl
      refine ⟨n, ?_, rfl⟩
      refine List.mem_append_left _ (List.mem_append_right _ ?_)
      exact List.mem_flatMap.mpr ⟨(c.toNat, image), by simp [hsplit], hn⟩
    · rename_i hl
      rw [List.mem_singleton] at hd
      have hnot : c.toNat ∉ upperSpecial.map (·.1) := by
        intro hmem
        obtain ⟨e, he, heq⟩ := List.mem_map.mp hmem
        have := List.lookup_eq_none_iff.mp hl e he
        simp [heq] at this
      unfold mapThrough at hd
      split at hd
      · rename_i s hs
        have hc : s.covers c.toNat = true := List.find?_some (p := fun t : Stride => t.covers c.toNat) hs
        obtain ⟨k, hk, hcp⟩ := Stride.step_of_covers hc
        refine ⟨s.2.2.2 + k * s.2.2.1, ?_, by rw [hd, hcp]; simp⟩
        refine List.mem_append_right _ ?_
        exact List.mem_flatMap.mpr
          ⟨s, List.mem_of_find?_eq_some hs, List.mem_map.mpr ⟨k, hk, rfl⟩⟩
      · rename_i hascii _ hf
        exfalso
        rcases List.mem_append.mp hdom with hdom | hdom
        · rcases List.mem_append.mp hdom with hdom | hdom
          · obtain ⟨k, hk, heq⟩ := List.mem_map.mp hdom
            have := List.mem_range.mp hk
            omega
          · exact hnot hdom
        · obtain ⟨s, hs, hpt⟩ := List.mem_flatMap.mp hdom
          have hcov := upperTables_checked.2.2.2.1
          have := List.find?_eq_none.mp hf s hs
          exact this (hcov s hs _ hpt)

/-- Upper-casing a character twice is upper-casing it once. -/
theorem upperChar_settled {c d : Char} (hd : d ∈ upperChar c) : upperChar d = [d] := by
  rcases mem_upperChar hd with ⟨rfl, hdom⟩ | ⟨n, hn, rfl⟩
  · exact upperChar_of_not_mem hdom
  · refine upperChar_of_not_mem fun hdom => ?_
    rw [toNat_ofNat (upperImages_valid hn)] at hdom
    exact disjoint_of_mask upperDomain_images_disjoint hdom hn

theorem flatMap_upperChar_settled :
    ∀ {l : List Char}, (∀ c ∈ l, upperChar c = [c]) → l.flatMap upperChar = l
  | [], _ => rfl
  | c :: rest, h => by
    rw [List.flatMap_cons, h c (by simp), flatMap_upperChar_settled fun d hd => h d (by simp [hd])]
    rfl

/-- **Upper-casing is idempotent.** It is checked on the table, where no image has an image of its
own but itself. -/
@[simp] theorem upper_upper (s : String) : upper (upper s) = upper s := by
  rw [← String.toList_inj, upper_toList, upper_toList]
  refine flatMap_upperChar_settled fun d hd => ?_
  obtain ⟨c, _, hdc⟩ := List.mem_flatMap.mp hd
  exact upperChar_settled hdc

/-! ## `upper` does not shorten -/

theorem upperChar_ne_nil (c : Char) : upperChar c ≠ [] := by
  have himages := upperTables_checked.2.2.2.2
  unfold upperChar
  split
  · simp
  · split
    · rename_i image himage
      obtain ⟨l₁, l₂, hsplit, -⟩ := List.lookup_eq_some_iff.mp himage
      have hne : image ≠ [] := himages (c.toNat, image) (by simp [hsplit])
      simpa using hne
    · simp

theorem length_le_length_upper (s : String) : s.length ≤ (upper s).length := by
  have hlist : ∀ l : List Char, l.length ≤ (l.flatMap upperChar).length := by
    intro l
    induction l with
    | nil => simp
    | cons c rest ih =>
      have hc : 0 < (upperChar c).length := List.length_pos_iff.mpr (upperChar_ne_nil c)
      rw [List.flatMap_cons, List.length_append, List.length_cons]
      omega
  rw [upper, String.length_ofList, ← String.length_toList]
  exact hlist s.toList

/-! ## Nothing empty from nothing empty -/

theorem upper_ne_empty {s : String} (h : s ≠ "") : upper s ≠ "" := by
  intro hempty
  have hle := length_le_length_upper s
  rw [hempty, String.length_empty, Nat.le_zero, String.length_eq_zero_iff] at hle
  exact h hle

theorem join_ne_empty (sep : String) {parts : List String} (hparts : parts ≠ [])
    (h : ∀ p ∈ parts, p ≠ "") : join sep parts ≠ "" := by
  cases parts with
  | nil => exact absurd rfl hparts
  | cons first rest =>
    have hfirst : first.toList ≠ [] := by
      simpa using h first (List.mem_cons_self ..)
    rw [join, ne_eq, String.ofList_eq_empty_iff, List.map_cons]
    cases rest with
    | nil => simpa [List.intercalate_singleton] using hfirst
    | cons second others =>
      rw [List.map_cons, List.intercalate_cons_cons]
      simp [hfirst]

theorem takeChars_ne_empty {n : Nat} {s : String} (hn : 0 < n) (h : s ≠ "") :
    takeChars n s ≠ "" := by
  have hlist : s.toList ≠ [] := by simpa using h
  rw [takeChars, ne_eq, String.ofList_eq_empty_iff, List.take_eq_nil_iff]
  rintro (hzero | hnil)
  · omega
  · exact hlist hnil

/-! ## Words -/

/-- Upper-casing makes no white space. -/
theorem not_space_of_mem_upperChar {c d : Char} (hd : d ∈ upperChar c) (hc : isSpaceChar c = false) :
    isSpaceChar d = false := by
  rcases mem_upperChar hd with ⟨rfl, -⟩ | ⟨n, hn, rfl⟩
  · exact hc
  · unfold isSpaceChar
    rw [toNat_ofNat (upperImages_valid hn)]
    exact (upperTables_checked.2.1 n hn).2.2

/-- A text with a character that is not white space has a word. -/
theorem split_ne_nil {s : String} {c : Char} (hmem : c ∈ s.toList) (hc : isSpaceChar c = false) :
    split s ≠ [] := by
  have hparts : ∀ cs : List Char, c ∈ cs → ∃ part ∈ cs.splitOnP isSpaceChar, part ≠ [] := by
    intro cs
    induction cs with
    | nil => simp
    | cons first rest ih =>
      intro hmem
      rw [List.splitOnP_cons_eq_if_modifyHead]
      cases hfirst : isSpaceChar first with
      | true =>
        have hrest : c ∈ rest := by
          rcases List.mem_cons.mp hmem with rfl | hrest
          · rw [hc] at hfirst
            cases hfirst
          · exact hrest
        obtain ⟨part, hpart, hne⟩ := ih hrest
        exact ⟨part, List.mem_cons_of_mem _ hpart, hne⟩
      | false =>
        cases hsplit : rest.splitOnP isSpaceChar with
        | nil => exact absurd hsplit (List.splitOnP_ne_nil _ _)
        | cons head others => exact ⟨first :: head, by simp, by simp⟩
  obtain ⟨part, hpart, hne⟩ := hparts s.toList hmem
  intro hnil
  rw [split, List.map_eq_nil_iff, List.filter_eq_nil_iff] at hnil
  exact hnil part hpart (by simpa using hne)

/-- What `strip` leaves, if anything, starts with a character that is not white space. -/
theorem exists_of_strip_ne_empty {s : String} (h : strip s ≠ "") :
    ∃ c rest, (strip s).toList = c :: rest ∧ isSpaceChar c = false := by
  obtain ⟨tail, htail⟩ :=
    List.rdropWhile_prefix isSpaceChar (l := s.toList.dropWhile isSpaceChar)
  cases hstrip : (strip s).toList with
  | nil => exact absurd (String.toList_eq_nil_iff.mp hstrip) h
  | cons c rest =>
    refine ⟨c, rest, rfl, ?_⟩
    have hhead := List.head?_dropWhile_not isSpaceChar s.toList
    rw [strip, String.toList_ofList] at hstrip
    rw [← htail, hstrip] at hhead
    simpa using hhead

/-! ## Commas -/

theorem comma_mem_upperChar {c : Char} : ',' ∈ upperChar c ↔ c = ',' := by
  constructor
  · intro h
    rcases mem_upperChar h with ⟨hc, -⟩ | ⟨n, hn, hc⟩
    · exact hc.symm
    · have hvalue : n = 44 := by
        have := congrArg Char.toNat hc
        rw [toNat_ofNat (upperImages_valid hn)] at this
        exact this.symm
      exact absurd hvalue (upperTables_checked.2.1 n hn).2.1
  · rintro rfl
    decide

/-- Upper-casing neither makes a comma nor removes one. -/
theorem comma_mem_upper {s : String} : ',' ∈ (upper s).toList ↔ ',' ∈ s.toList := by
  simp [List.mem_flatMap, comma_mem_upperChar]

/-- No part of a split holds the separator. -/
theorem not_of_mem_splitOnP {p : Char → Bool} :
    ∀ {l part : List Char}, part ∈ l.splitOnP p → ∀ c ∈ part, p c = false
  | [], part, hpart, c, hc => by
    rw [List.splitOnP_nil, List.mem_singleton] at hpart
    rw [hpart] at hc
    exact absurd hc (by simp)
  | a :: rest, part, hpart, c, hc => by
    rw [List.splitOnP_cons_eq_if_modifyHead] at hpart
    split at hpart
    · rcases List.mem_cons.mp hpart with rfl | hpart
      · exact absurd hc (by simp)
      · exact not_of_mem_splitOnP hpart c hc
    · rename_i ha
      cases hsplit : rest.splitOnP p with
      | nil =>
        rw [hsplit] at hpart
        exact absurd hpart (by simp)
      | cons first others =>
        rw [hsplit, List.modifyHead_cons] at hpart
        rcases List.mem_cons.mp hpart with rfl | hpart
        · rcases List.mem_cons.mp hc with rfl | hc
          · simpa using ha
          · exact not_of_mem_splitOnP (l := rest) (by simp [hsplit]) c hc
        · exact not_of_mem_splitOnP (l := rest) (by simp [hsplit, hpart]) c hc

theorem sep_notMem_splitOnChar {sep : Char} {s part : String} (h : part ∈ splitOnChar sep s) :
    sep ∉ part.toList := by
  obtain ⟨l, hl, rfl⟩ := List.mem_map.mp h
  rw [String.toList_ofList]
  rw [List.splitOn_eq_splitOnP] at hl
  intro hsep
  have hne := not_of_mem_splitOnP hl sep hsep
  simp at hne

end Py
end SecureMail
