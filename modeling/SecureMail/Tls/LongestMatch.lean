import SecureMail.Lib.LongestPrefix
import SecureMail.Tls.Token

/-!
# The key-exchange table, searched for the longest entry

The comment on the table says that the longer entries come first, and its lengths do not go down:
`ECCPWD` stands after `DH`. What the scan needs is less, that no entry begins a later one at an
underscore (`tls12KxPrefixes_ordered`), and with that the first entry that matches is the longest.

Matching is about words and not about characters. `startswith(kx + "_")` is the source's way to ask
if the words of the entry are the first words of the name, and in that form the entries that match
one name are all beginnings of one list: any two are comparable, and the longer text is the one with
more words. That leaves a property of the table alone, a finite check, and a general fact about
searching a list for a longest prefix, which is in the library.
-/

namespace SecureMail
namespace Tls

open Py (startsWith splitOnChar)

/-- The words of a suite name. -/
def words (text : String) : List String := splitOnChar '_' text

/-- `TLS` and the entry are whole words at the beginning of the name. It is the meaning of a match,
on the words of a name and without the underscores that the code compares. -/
def IsTokenPrefix (kx name : String) : Prop := words ("TLS_" ++ kx) <+: words name

/-- The longest of the entries that are whole words at the beginning of the name, by the length of the
text, as the comment on the table means it. No two entries that match are of one length. -/
def IsLongestToken (entry : String × String) (name : String) : Prop :=
  entry ∈ tls12KxPrefixes ∧ IsTokenPrefix entry.1 name ∧
    ∀ other ∈ tls12KxPrefixes, other ≠ entry → IsTokenPrefix other.1 name →
      other.1.length < entry.1.length

theorem length_lt_of_words {a b : String} (h : words a <+: words b) (hne : a ≠ b) :
    a.length < b.length := by
  have hmatch := splitOnChar_prefix_iff.mp h
  rw [matchesPrefix, Bool.or_eq_true, beq_iff_eq, startsWith_iff, String.toList_append] at hmatch
  rcases hmatch with rfl | hfront
  · exact absurd rfl hne
  · have hlength := hfront.length_le
    rw [List.length_append, String.length_toList, String.length_toList] at hlength
    exact Nat.lt_of_lt_of_le (Nat.lt_add_of_pos_right (by decide)) hlength

/-- Of two entries of one name, the shorter has the fewer words, and they begin the other's. -/
theorem words_shorter_iff {a b : String} {text : List String} (ha : words a <+: text)
    (hb : words b <+: text) :
    (words b <+: words a ∧ (words b).length < (words a).length) ↔ b.length < a.length := by
  constructor
  · rintro ⟨hfront, hlength⟩
    refine length_lt_of_words hfront ?_
    rintro rfl
    exact absurd hlength (Nat.lt_irrefl _)
  · intro hlt
    refine LongestPrefix.length_lt_of_not_prefix ha hb ?_
    intro hfront
    by_cases hsame : a = b
    · subst hsame
      exact absurd hlt (Nat.lt_irrefl _)
    · exact absurd (length_lt_of_words hfront hsame) (Nat.not_lt.mpr hlt.le)

/-! ## The name after `TLS_` -/

theorem words_tls (kx : String) : words ("TLS_" ++ kx) = "TLS" :: words kx := by
  have htls : startsWith ("TLS_" ++ kx) "TLS_" = true := by
    rw [startsWith_iff, String.toList_append]
    exact List.prefix_append _ _
  rw [words, splitOnChar_tls htls, Py.dropChars, String.toList_append]
  rw [show ("TLS_".toList ++ kx.toList).drop 4 = kx.toList from rfl, String.ofList_toList]
  rfl

theorem isTokenPrefix_iff {kx name : String} :
    IsTokenPrefix kx name ↔
      startsWith name "TLS_" = true ∧ words kx <+: words (Py.dropChars 4 name) := by
  have hwords : startsWith name "TLS_" = true →
      (IsTokenPrefix kx name ↔ words kx <+: words (Py.dropChars 4 name)) := by
    intro htls
    have hname : words name = "TLS" :: words (Py.dropChars 4 name) := splitOnChar_tls htls
    rw [IsTokenPrefix, words_tls, hname, List.prefix_cons_inj]
  constructor
  · intro h
    have htls : startsWith name "TLS_" = true := by
      have hmatch := splitOnChar_prefix_iff.mp h
      rw [matchesPrefix, Bool.or_eq_true, beq_iff_eq, startsWith_iff] at hmatch
      rw [startsWith_iff]
      rcases hmatch with rfl | hmatch
      · rw [String.toList_append]
        exact List.prefix_append _ _
      · rw [String.toList_append, String.toList_append, List.append_assoc] at hmatch
        exact (List.prefix_append _ _).trans hmatch
    exact ⟨htls, (hwords htls).mp h⟩
  · rintro ⟨htls, hfront⟩
    exact (hwords htls).mpr hfront

/-! ## The table -/

theorem tls12KxPrefixes_words : tls12KxPrefixes.map (fun entry => words entry.1) =
    [["ECDHE", "PSK"], ["DHE", "PSK"], ["RSA", "PSK"], ["ECDHE"], ["DHE"], ["ECDH"], ["DH"],
     ["PSK"], ["RSA"], ["SRP", "SHA"], ["ECCPWD"], ["KRB5"], ["GOSTR341112", "256"],
     ["GOSTR341094"], ["GOSTR341001"]] := by
  decide

/-- No entry begins a later one at an underscore. -/
theorem tls12KxPrefixes_ordered :
    LongestPrefix.Ordered (fun entry => words entry.1) tls12KxPrefixes := by
  rw [LongestPrefix.Ordered, ← List.pairwise_map (R := fun a b => ¬ a <+: b),
    tls12KxPrefixes_words]
  decide

theorem tls12MechanismFromName_eq {name : String} (htls : startsWith name "TLS_" = true) :
    tls12MechanismFromName name =
      (tls12KxPrefixes.find? fun entry =>
        decide (words entry.1 <+: words (Py.dropChars 4 name))).map (·.2) := by
  have htest : (fun entry : String × String => matchesPrefix (Py.dropChars 4 name) entry.1) =
      fun entry => decide (words entry.1 <+: words (Py.dropChars 4 name)) := by
    funext entry
    rw [Bool.eq_iff_iff, decide_eq_true_eq]
    exact splitOnChar_prefix_iff.symm
  rw [tls12MechanismFromName, if_pos htls, htest]

theorem find?_iff_isLongestToken {name : String} {entry : String × String}
    (htls : startsWith name "TLS_" = true) :
    (tls12KxPrefixes.find? fun e =>
      decide (words e.1 <+: words (Py.dropChars 4 name))) = some entry ↔
      IsLongestToken entry name := by
  have htoken : ∀ kx, IsTokenPrefix kx name ↔ words kx <+: words (Py.dropChars 4 name) := by
    intro kx
    rw [isTokenPrefix_iff]
    exact ⟨fun h => h.2, fun h => ⟨htls, h⟩⟩
  rw [LongestPrefix.find?_eq_some_iff tls12KxPrefixes_ordered]
  simp only [IsLongestToken, htoken]
  refine and_congr_right fun _ => and_congr_right fun hentry => ?_
  refine forall₂_congr fun other _ => forall_congr' fun _ => forall_congr' fun hother => ?_
  exact words_shorter_iff hentry hother

/-- **The first match is the longest entry that is whole words of the name.** The order of the table
is what makes the first match the longest, and the table has no two entries in the wrong order. -/
theorem tls12MechanismFromName_longest (name : String) :
    (∀ mechanism, tls12MechanismFromName name = some mechanism ↔
      ∃ entry, IsLongestToken entry name ∧ entry.2 = mechanism) ∧
    (tls12MechanismFromName name = none ↔
      ∀ entry ∈ tls12KxPrefixes, ¬ IsTokenPrefix entry.1 name) := by
  by_cases htls : startsWith name "TLS_" = true
  · rw [tls12MechanismFromName_eq htls]
    constructor
    · intro mechanism
      rw [Option.map_eq_some_iff]
      exact exists_congr fun entry => and_congr_left fun _ => find?_iff_isLongestToken htls
    · rw [Option.map_eq_none_iff]
      refine (@LongestPrefix.find?_eq_none_iff _ _ (fun e : String × String => words e.1) _ _ _).trans ?_
      refine forall₂_congr fun entry _ => not_congr ?_
      rw [isTokenPrefix_iff]
      exact ⟨fun h => ⟨htls, h⟩, fun h => h.2⟩
  · have hnone : tls12MechanismFromName name = none := if_neg htls
    have hnot : ∀ kx, ¬ IsTokenPrefix kx name := fun kx h => htls (isTokenPrefix_iff.mp h).1
    constructor
    · intro mechanism
      rw [hnone]
      constructor
      · intro h
        exact absurd h (by simp)
      · rintro ⟨entry, ⟨-, hentry, -⟩, -⟩
        exact absurd hentry (hnot entry.1)
    · rw [hnone]
      exact ⟨fun _ entry _ => hnot entry.1, fun _ => rfl⟩

end Tls
end SecureMail
