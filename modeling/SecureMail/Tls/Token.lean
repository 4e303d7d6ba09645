import SecureMail.Tls.KeyExchange

/-!
# The key-exchange token of a suite name

A suite name of TLS 1.2 and older is words joined by underscores, and the word after `TLS` names the
key exchange. `kxToken` reads it off the words. The classifier never splits the name: it walks a
table of prefixes and takes the first the name starts with, so that `DHE_PSK` has to stand before
`DHE` for the answer to be the token's. `kxToken_of_mechanism` says that it does, for the five
tokens forward secrecy is decided by.

`kxToken` is a second reading of the name, made independently of the table, and it is what a
statement about forward secrecy should speak of: that the table says `ECDHE` is a fact about the
table, that the name has the word in that place is a fact about the name.
-/

namespace SecureMail
namespace Tls

open Py (startsWith splitOnChar)

/-! ## Prefixes and words -/

theorem intercalate_append {α : Type} (c : α) {first second : List (List α)}
    (hfirst : first ≠ []) (hsecond : second ≠ []) :
    [c].intercalate (first ++ second) =
      [c].intercalate first ++ c :: [c].intercalate second := by
  induction first with
  | nil => exact absurd rfl hfirst
  | cons word rest ih =>
    cases rest with
    | nil =>
      rw [List.singleton_append, List.intercalate_cons_of_ne_nil hsecond,
        List.intercalate_singleton, List.append_assoc, List.singleton_append]
    | cons next others =>
      have hrest := ih (by simp)
      rw [List.cons_append, List.intercalate_cons_of_ne_nil (by simp),
        List.intercalate_cons_of_ne_nil (by simp), hrest]
      simp

/-- A text begins with the words of another exactly when it is that text or goes on with a
separator. -/
theorem splitOn_prefix_iff {α : Type} [DecidableEq α] {c : α} {head text : List α} :
    head.splitOn c <+: text.splitOn c ↔ text = head ∨ head ++ [c] <+: text := by
  constructor
  · rintro ⟨rest, hrest⟩
    have htext : [c].intercalate (head.splitOn c ++ rest) = text := by
      rw [hrest, List.intercalate_splitOn]
    by_cases hnil : rest = []
    · rw [hnil, List.append_nil, List.intercalate_splitOn] at htext
      exact Or.inl htext.symm
    · rw [intercalate_append c (List.splitOn_ne_nil c head) hnil, List.intercalate_splitOn] at htext
      exact Or.inr ⟨[c].intercalate rest, by simpa using htext⟩
  · rintro (rfl | ⟨tail, rfl⟩)
    · exact List.prefix_refl _
    · rw [List.append_assoc, List.singleton_append, List.splitOn_append_cons_self]
      exact List.prefix_append _ _

theorem startsWith_iff {s p : String} : startsWith s p = true ↔ p.toList <+: s.toList := by
  rw [startsWith, List.isPrefixOf_iff_prefix]

theorem splitOnChar_prefix_iff {text head : String} :
    splitOnChar '_' head <+: splitOnChar '_' text ↔ matchesPrefix text head = true := by
  have hmap : splitOnChar '_' head <+: splitOnChar '_' text ↔
      head.toList.splitOn '_' <+: text.toList.splitOn '_' := by
    constructor
    · intro h
      have hlists := h.map String.toList
      simpa [splitOnChar, List.map_map, Function.comp_def] using hlists
    · exact fun h => h.map String.ofList
  rw [hmap, splitOn_prefix_iff, matchesPrefix, Bool.or_eq_true, beq_iff_eq, startsWith_iff,
    String.toList_append, String.toList_inj]
  rfl

theorem splitOnChar_tls {suite : String} (h : startsWith suite "TLS_" = true) :
    splitOnChar '_' suite = "TLS" :: splitOnChar '_' (Py.dropChars 4 suite) := by
  obtain ⟨tail, htail⟩ := startsWith_iff.mp h
  have hdrop : suite.toList.drop 4 = tail := by
    rw [← htail]
    rfl
  have hsplit : suite.toList.splitOn '_' = ['T', 'L', 'S'] :: tail.splitOn '_' := by
    rw [← htail]
    have hword : '_' ∉ "TLS".toList := by decide
    exact List.splitOn_append_cons_self_of_not_mem hword tail
  rw [splitOnChar, splitOnChar, Py.dropChars, hsplit, String.toList_ofList, hdrop]
  rfl

/-! ## The token -/

/-- The key exchanges that a pre-shared key joins. -/
def pskPartners : List String := ["ECDHE", "DHE", "RSA"]

/-- The word after `TLS`, with the `PSK` that belongs to it. A `PSK` after any other word is a word of
the cipher and not of the key exchange. -/
def kxToken (suite : String) : Option String :=
  match splitOnChar '_' suite with
  | "TLS" :: kx :: rest =>
      some (if pskPartners.contains kx ∧ rest.head? = some "PSK" then kx ++ "_PSK" else kx)
  | _ => none

/-- The five tokens forward secrecy is decided by. -/
def decidingTokens : List String := ["ECDHE", "DHE", "RSA", "DH", "ECDH"]

/-- The entries of the table that end in `PSK`, which stand first. -/
def pskPrefixes : List (String × String) := tls12KxPrefixes.take 3

theorem pskPrefixes_mechanism : ∀ entry ∈ pskPrefixes, entry.2 ∉ decidingTokens := by decide

theorem pskPrefixes_partner :
    ∀ kx ∈ pskPartners, ∃ entry ∈ pskPrefixes, splitOnChar '_' entry.1 = [kx, "PSK"] := by
  decide

theorem prefix_of_decidingToken :
    ∀ entry ∈ tls12KxPrefixes, entry.2 ∈ decidingTokens →
      splitOnChar '_' entry.1 = [entry.2] := by
  decide

/-- Where the table answers with a token, its own entry matched and none of the PSK entries did. -/
theorem matches_of_mechanism {suite token : String} (htoken : token ∈ decidingTokens)
    (h : tls12MechanismFromName suite = some token) :
    startsWith suite "TLS_" = true ∧
      [token] <+: splitOnChar '_' (Py.dropChars 4 suite) ∧
      ∀ entry ∈ pskPrefixes, matchesPrefix (Py.dropChars 4 suite) entry.1 = false := by
  unfold tls12MechanismFromName at h
  split at h
  · rename_i htls
    obtain ⟨entry, hfind, rfl⟩ := Option.map_eq_some_iff.mp h
    refine ⟨htls, ?_, ?_⟩
    · rw [← prefix_of_decidingToken entry (List.mem_of_find?_eq_some hfind) htoken,
        splitOnChar_prefix_iff]
      exact List.find?_some (p := fun entry : String × String =>
        matchesPrefix (Py.dropChars 4 suite) entry.1) hfind
    · rw [show tls12KxPrefixes = pskPrefixes ++ tls12KxPrefixes.drop 3 from rfl,
        List.find?_append] at hfind
      cases hpsk : pskPrefixes.find? fun entry =>
          matchesPrefix (Py.dropChars 4 suite) entry.1 with
      | some found =>
        rw [hpsk, Option.some_or, Option.some.injEq] at hfind
        subst hfind
        exact absurd htoken (pskPrefixes_mechanism found (List.mem_of_find?_eq_some hpsk))
      | none =>
        intro other hother
        have hnot := List.find?_eq_none.mp hpsk other hother
        simpa using hnot
  · exact absurd h (by simp)

/-- **The table answers with the token.** The table is read from the side of its answers here, entry
by entry. -/
theorem kxToken_of_mechanism {suite token : String} (htoken : token ∈ decidingTokens)
    (h : tls12MechanismFromName suite = some token) : kxToken suite = some token := by
  obtain ⟨htls, ⟨rest, hwords⟩, hpsk⟩ := matches_of_mechanism htoken h
  have hsplit : splitOnChar '_' suite = "TLS" :: token :: rest := by
    rw [splitOnChar_tls htls, ← hwords]
    rfl
  have hplain : ¬ (pskPartners.contains token = true ∧ rest.head? = some "PSK") := by
    rintro ⟨hpartner, hhead⟩
    -- The words would begin with those of a PSK entry, and it would have matched.
    obtain ⟨entry, hentry, hwordsOf⟩ := pskPrefixes_partner token (by simpa using hpartner)
    have hfront : splitOnChar '_' entry.1 <+: splitOnChar '_' (Py.dropChars 4 suite) := by
      rw [hwordsOf, ← hwords]
      obtain ⟨others, rfl⟩ := List.head?_eq_some_iff.mp hhead
      exact ⟨others, rfl⟩
    have hmatch := splitOnChar_prefix_iff.mp hfront
    rw [hpsk entry hentry] at hmatch
    exact absurd hmatch (by simp)
  rw [kxToken, hsplit]
  simp only [if_neg hplain]

end Tls
end SecureMail
