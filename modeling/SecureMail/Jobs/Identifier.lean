import SecureMail.Py.Str

/-!
# Identifiers

Runs and cases are named by the strings of one pattern, which is also the form of their file names.
The pattern is what keeps a name inside its directory: it has no slash, and it begins with a letter
or a digit, so it is neither `..` nor a hidden file. `Identifier` has the match as a field, and every
path that is built in the model is built from one.

A case that the caller does not name is named after its capture, whose file name comes from outside
and may be anything. The program cleans it and does not check the result against the pattern; that
what it makes is an identifier all the same is proved below, so that a directory can be given it
without a branch for the case that it is none.
-/

namespace SecureMail
namespace Jobs

open Py

def isAsciiAlnum (c : Char) : Bool :=
  ('A' ≤ c && c ≤ 'Z') || ('a' ≤ c && c ≤ 'z') || ('0' ≤ c && c ≤ '9')

/-- `[A-Za-z0-9._-]`. -/
def isIdChar (c : Char) : Bool := isAsciiAlnum c || c == '.' || c == '_' || c == '-'

/-- `_ID_PATTERN.fullmatch(text)`: `[A-Za-z0-9][A-Za-z0-9._-]{0,159}`. -/
def isIdentifier (text : String) : Bool :=
  match text.toList with
  | [] => false
  | first :: rest => isAsciiAlnum first && rest.all isIdChar && decide (rest.length ≤ 159)

/-- A string of the pattern, with the match. -/
structure Identifier where
  text : String
  valid : isIdentifier text = true
deriving DecidableEq

theorem Identifier.eq_of_text {a b : Identifier} (h : a.text = b.text) : a = b := by
  cases a
  cases b
  cases h
  rfl

/-- `_UNSAFE_NAME.sub("-", ..)`: a maximal run of other characters becomes one hyphen. -/
def subUnsafe (inRun : Bool) : List Char → List Char
  | [] => []
  | c :: rest =>
    if isIdChar c then c :: subUnsafe false rest
    else if inRun then subUnsafe true rest
    else '-' :: subUnsafe true rest

/-- What `.strip("-._")` removes. -/
def isTrim (c : Char) : Bool := c == '-' || c == '.' || c == '_'

/-- `filename.rsplit(".", 1)[0]`. -/
def stem (filename : List Char) : List Char :=
  if '.' ∈ filename then (filename.reverse.dropWhile (· ≠ '.')).tail.reverse else filename

/-- The stem of the capture as `case_id_for` cleans it. -/
def cleanedStem (filename : String) : List Char :=
  let cleaned := ((subUnsafe false (stem filename.toList)).dropWhile isTrim).rdropWhile isTrim
  match cleaned with
  | [] => "cap".toList
  | first :: _ => if isAsciiAlnum first then cleaned else "cap".toList

/-- A number in hexadecimal, `n` digits long. -/
structure Hex (n : Nat) where
  text : String
  digits : text.toList.all (fun c => ('0' ≤ c && c ≤ '9') || ('a' ≤ c && c ≤ 'f')) = true
  length : text.toList.length = n
deriving DecidableEq

/-- A SHA-256 `hexdigest()`. -/
abbrev Digest := Hex 64

/-- `secrets.token_hex(8)`. -/
abbrev Token := Hex 16

/-- The name of a case whose caller names none: the stem and eight digits of the digest. -/
def defaultCaseName (filename : String) (digest : Digest) : String :=
  String.ofList ((cleanedStem filename).take 140 ++ '-' :: digest.text.toList.take 8)

/-! ## The names the program makes are identifiers -/

theorem isIdChar_of_isAsciiAlnum {c : Char} (h : isAsciiAlnum c = true) : isIdChar c = true := by
  simp [isIdChar, h]

theorem all_isIdChar_subUnsafe {chars : List Char} :
    ∀ {inRun : Bool}, (subUnsafe inRun chars).all isIdChar = true := by
  induction chars with
  | nil =>
    intro inRun
    rfl
  | cons c rest ih =>
    intro inRun
    unfold subUnsafe
    by_cases hc : isIdChar c = true
    · simp [hc, ih]
    · cases inRun with
      | true => simp [hc, ih]
      | false =>
        simp only [hc, Bool.false_eq_true, if_false, List.all_cons, ih, Bool.and_true]
        rfl

theorem cleanedStem_eq_cons (filename : String) :
    ∃ first rest, cleanedStem filename = first :: rest ∧ isAsciiAlnum first = true ∧
      rest.all isIdChar = true := by
  have hcap : ∃ first rest, "cap".toList = first :: rest ∧ isAsciiAlnum first = true ∧
      rest.all isIdChar = true := ⟨'c', ['a', 'p'], rfl, rfl, rfl⟩
  have hall : (((subUnsafe false (stem filename.toList)).dropWhile isTrim).rdropWhile isTrim).all
      isIdChar = true := by
    rw [List.all_eq_true]
    intro c hc
    have hmem : c ∈ subUnsafe false (stem filename.toList) :=
      (List.dropWhile_sublist _).subset ((List.rdropWhile_prefix _ _).subset hc)
    exact List.all_eq_true.mp all_isIdChar_subUnsafe c hmem
  unfold cleanedStem
  cases hcleaned : ((subUnsafe false (stem filename.toList)).dropWhile isTrim).rdropWhile isTrim with
  | nil => exact hcap
  | cons first rest =>
    rw [hcleaned, List.all_cons, Bool.and_eq_true] at hall
    by_cases hfirst : isAsciiAlnum first = true
    · exact ⟨first, rest, by simp [hfirst], hfirst, hall.2⟩
    · simpa [hfirst] using hcap

theorem Hex.all_isIdChar {n : Nat} (hex : Hex n) : hex.text.toList.all isIdChar = true := by
  rw [List.all_eq_true]
  intro c hc
  have hhex := List.all_eq_true.mp hex.digits c hc
  refine isIdChar_of_isAsciiAlnum ?_
  simp only [Bool.or_eq_true, Bool.and_eq_true, decide_eq_true_eq] at hhex
  simp only [isAsciiAlnum, Bool.or_eq_true, Bool.and_eq_true, decide_eq_true_eq]
  rcases hhex with hdigit | ⟨ha, hf⟩
  · exact Or.inr hdigit
  · have hz : 'f' ≤ 'z' := by decide
    exact Or.inl (Or.inr ⟨ha, Char.le_trans hf hz⟩)

/-- `"r" + secrets.token_hex(8)` and `"u" + secrets.token_hex(8)`. -/
theorem isIdentifier_token {letter : Char} (hletter : isAsciiAlnum letter = true) (token : Token) :
    isIdentifier (String.ofList (letter :: token.text.toList)) = true := by
  unfold isIdentifier
  rw [String.toList_ofList]
  simp only [hletter, token.all_isIdChar, token.length, Bool.and_self, Nat.reduceLeDiff, decide_true]

/-- **A case that is not named by its caller has an identifier for a name**, whatever the capture is
called. -/
theorem isIdentifier_defaultCaseName (filename : String) (digest : Digest) :
    isIdentifier (defaultCaseName filename digest) = true := by
  obtain ⟨first, rest, hstem, hfirst, hrest⟩ := cleanedStem_eq_cons filename
  have htake : (rest.take 139).all isIdChar = true := by
    rw [List.all_eq_true] at hrest ⊢
    intro c hc
    exact hrest c (List.mem_of_mem_take hc)
  have hdigest : (digest.text.toList.take 8).all isIdChar = true := by
    have hall := digest.all_isIdChar
    rw [List.all_eq_true] at hall ⊢
    intro c hc
    exact hall c (List.mem_of_mem_take hc)
  have hhyphen : isIdChar '-' = true := rfl
  unfold isIdentifier defaultCaseName
  rw [hstem]
  simp only [String.toList_ofList, List.take_succ_cons, List.cons_append, hfirst, List.all_append,
    List.all_cons, htake, hhyphen, hdigest, Bool.true_and, List.length_append, List.length_take,
    List.length_cons, decide_eq_true_eq]
  omega

/-- The identifier of a random token. -/
def Token.identifier (letter : Char) (hletter : isAsciiAlnum letter = true) (token : Token) :
    Identifier := ⟨String.ofList (letter :: token.text.toList), isIdentifier_token hletter token⟩

end Jobs
end SecureMail
