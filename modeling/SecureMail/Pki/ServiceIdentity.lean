import SecureMail.Pki.Identity
import SecureMail.Py.Delimited

/-!
# What a certificate may be taken for

The rule of RFC 9525 as `match_service_identity` has it: an IP reference is looked up among the IP
entries, a host among the DNS entries, and a DNS entry names a host by being it or by a wildcard
that stands for one whole label at the left. The label that a wildcard stands for is a label of the
reference, so it is refused where the reference has a wildcard there itself.

The last point is where the code differs from the shortest reading of the rule, on purpose: a
reference that has a `*` in the place of the wildcard would otherwise match it by being equal to it.
The theorem is for any list of entries and any reference, with the two conversions left open, so
that it holds of whatever the standard library makes of a name.
-/

namespace SecureMail
namespace Pki

open Py (strip lower splitOnChar startsWith isIn)

/-! ## The rule -/

/-- A DNS entry names a host. It is the rule of the standard for one entry, on labels and without
the tests by which the code gets there. -/
inductive Names (pattern host : String) : Prop
  | exact (hplain : '*' ∉ pattern.toList) (h : pattern = host)
  | wildcard (label rest : String) (hpattern : pattern = "*." ++ rest) (hrest : '*' ∉ rest.toList)
      (hhost : host = label ++ "." ++ rest) (hlabel : '.' ∉ label.toList) (hne : label ≠ "")
      (hstar : label ≠ "*")

/-- The entries identify the reference. There is one case for each kind of reference, as an address
is never looked up among the names. -/
inductive Identifies (codec : IdentityCodec) (reference : String) (entries : List SanEntry) : Prop
  | ip (address : String) (h : codec.ipAddress (strip reference) = some address)
      (hmem : .ip address ∈ entries)
  | host (name pattern : String) (hip : codec.ipAddress (strip reference) = none)
      (h : codec.normalizeDns reference = some name) (hmem : .dns pattern ∈ entries)
      (hnames : Names pattern name)

/-! ## One entry -/

theorem isIn_star_iff {s : String} : isIn "*" s = true ↔ '*' ∈ s.toList := by
  rw [isIn, decide_eq_true_eq]
  exact List.singleton_infix_iff '*' s.toList

theorem startsWith_star_iff {pattern : String} :
    startsWith pattern "*." = true ↔ ∃ rest, pattern = "*." ++ rest := by
  rw [startsWith, List.isPrefixOf_iff_prefix]
  constructor
  · rintro ⟨rest, hrest⟩
    refine ⟨String.ofList rest, String.toList_injective ?_⟩
    rw [← hrest, String.toList_append]
    exact congrArg _ String.toList_ofList.symm
  · rintro ⟨rest, rfl⟩
    rw [String.toList_append]
    exact List.prefix_append _ _

theorem count_star_eq_one_iff {rest : String} :
    ("*." ++ rest).toList.count '*' = 1 ↔ '*' ∉ rest.toList := by
  rw [String.toList_append, List.count_append, show ("*.".toList).count '*' = 1 from rfl,
    Nat.add_eq_left, List.count_eq_zero]

theorem dot_toList : ".".toList = ['.'] := rfl

theorem splitOnChar_star (rest : String) :
    splitOnChar '.' ("*." ++ rest) = "*" :: splitOnChar '.' rest :=
  Py.splitOnChar_append_sep (a := "*") dot_toList (by decide) rest

/-- The last test of `_dns_name_matches`: the labels but the first are the same. -/
theorem labels_test_iff {rest host : String} :
    ((splitOnChar '.' host).length = (splitOnChar '.' rest).length + 1 ∧
      (splitOnChar '.' host).head? ≠ some "" ∧ (splitOnChar '.' host).head? ≠ some "*" ∧
      (splitOnChar '.' host).drop 1 = splitOnChar '.' rest) ↔
    ∃ label, host = label ++ "." ++ rest ∧ '.' ∉ label.toList ∧ label ≠ "" ∧ label ≠ "*" := by
  constructor
  · rintro ⟨-, hne, hstar, htail⟩
    cases hlabels : splitOnChar '.' host with
    | nil => exact absurd hlabels (Py.splitOnChar_ne_nil '.' host)
    | cons label others =>
      rw [hlabels, List.drop_one, List.tail_cons] at htail
      rw [hlabels, List.head?_cons, ne_eq, Option.some.injEq] at hne hstar
      rw [htail] at hlabels
      obtain ⟨hhost, hdot⟩ := (Py.splitOnChar_eq_cons_iff dot_toList).mp hlabels
      exact ⟨label, hhost, hdot, hne, hstar⟩
  · rintro ⟨label, rfl, hdot, hne, hstar⟩
    rw [Py.splitOnChar_append_sep dot_toList hdot]
    simp [hne, hstar]

/-- The test of an entry with a wildcard. -/
theorem wildcardMatches_iff {rest host : String} (hrest : '*' ∉ rest.toList) :
    IdentityCodec.dnsNameMatches ("*." ++ rest) host = true ↔
      ∃ label, host = label ++ "." ++ rest ∧ '.' ∉ label.toList ∧ label ≠ "" ∧ label ≠ "*" := by
  have hin : isIn "*" ("*." ++ rest) = true := isIn_star_iff.mpr (by simp)
  have hstart : startsWith ("*." ++ rest) "*." = true := startsWith_star_iff.mpr ⟨rest, rfl⟩
  have hcount := count_star_eq_one_iff.mpr hrest
  have hlength : 0 < (splitOnChar '.' rest).length :=
    List.length_pos_iff.mpr (Py.splitOnChar_ne_nil '.' rest)
  rw [← labels_test_iff]
  simp only [IdentityCodec.dnsNameMatches, hin, hstart, hcount, splitOnChar_star,
    List.length_cons, List.head?_cons, List.drop_succ_cons, List.drop_zero, List.drop_one]
  have htwo : ¬ (splitOnChar '.' rest).length + 1 < 2 := by omega
  by_cases hlen : (splitOnChar '.' host).length = (splitOnChar '.' rest).length + 1
  · by_cases hhead : (splitOnChar '.' host).head? = some "" ∨ (splitOnChar '.' host).head? = some "*"
    · simp only [hlen, htwo, hhead, if_true]
      rcases hhead with hhead | hhead <;> simp [hhead]
    · simp [hlen, htwo, not_or.mp hhead]
  · simp [hlen, htwo, Ne.symm hlen]

theorem dnsNameMatches_iff {pattern host : String} :
    IdentityCodec.dnsNameMatches pattern host = true ↔ Names pattern host := by
  by_cases hstar : '*' ∈ pattern.toList
  · by_cases hstart : ∃ rest, pattern = "*." ++ rest ∧ '*' ∉ rest.toList
    · obtain ⟨rest, rfl, hrest⟩ := hstart
      rw [wildcardMatches_iff hrest]
      constructor
      · rintro ⟨label, hhost, hdot, hne, hstar'⟩
        exact .wildcard label rest rfl hrest hhost hdot hne hstar'
      · intro h
        cases h with
        | exact hplain => exact absurd hstar hplain
        | wildcard label rest' hpattern _ hhost hdot hne hstar' =>
          obtain rfl := String.append_right_inj _ |>.mp hpattern
          exact ⟨label, hhost, hdot, hne, hstar'⟩
    · have hrefused : (!startsWith pattern "*." || pattern.toList.count '*' != 1) = true := by
        by_cases hfront : startsWith pattern "*." = true
        · obtain ⟨rest, rfl⟩ := startsWith_star_iff.mp hfront
          have hrest : ¬ '*' ∉ rest.toList := fun hrest => hstart ⟨rest, rfl, hrest⟩
          rw [← count_star_eq_one_iff] at hrest
          rw [Bool.or_eq_true, bne_iff_ne]
          exact Or.inr hrest
        · rw [Bool.or_eq_true, Bool.not_eq_true']
          exact Or.inl (Bool.eq_false_iff.mpr hfront)
      have hfalse : IdentityCodec.dnsNameMatches pattern host = false := by
        rw [IdentityCodec.dnsNameMatches, isIn_star_iff.mpr hstar, hrefused]
        rfl
      rw [hfalse]
      constructor
      · exact fun h => absurd h (by simp)
      · intro h
        cases h with
        | exact hplain => exact absurd hstar hplain
        | wildcard label rest hpattern hrest => exact absurd ⟨rest, hpattern, hrest⟩ hstart
  · have hin : isIn "*" pattern = false := by
      rw [Bool.eq_false_iff, ne_eq, isIn_star_iff]
      exact hstar
    rw [IdentityCodec.dnsNameMatches, hin, Bool.not_false, if_pos rfl, beq_iff_eq]
    constructor
    · exact fun h => .exact hstar h
    · intro h
      cases h with
      | exact _ h => exact h
      | wildcard label rest hpattern =>
        rw [hpattern] at hstar
        exact absurd (by simp) hstar

/-! ## The answer -/

theorem resultOf_match {matched : Bool} :
    (IdentityCodec.resultOf matched).match = some matched := by cases matched <;> rfl

theorem any_namesHost_iff {entries : List SanEntry} {host : String} :
    entries.any (IdentityCodec.namesHost host) = true ↔
      ∃ pattern, .dns pattern ∈ entries ∧ Names pattern host := by
  rw [List.any_eq_true]
  constructor
  · rintro ⟨entry, hmem, hnames⟩
    cases entry with
    | dns pattern => exact ⟨pattern, hmem, dnsNameMatches_iff.mp hnames⟩
    | ip value => exact absurd hnames (by simp [IdentityCodec.namesHost])
  · rintro ⟨pattern, hmem, hnames⟩
    exact ⟨.dns pattern, hmem, dnsNameMatches_iff.mpr hnames⟩

variable {codec : IdentityCodec} {entries : List SanEntry}

/-- A reference that is not blank is answered, and by the rule. -/
theorem match_of_reference {reference : String} (h : strip reference ≠ "") :
    ∃ matched, (codec.matchServiceIdentity (some reference) entries).match = some matched ∧
      (matched = true ↔ Identifies codec reference entries) := by
  have hfilter : (some reference).filter (fun r => strip r ≠ "") = some reference := by
    simp [h]
  rw [IdentityCodec.matchServiceIdentity, hfilter]
  simp only
  cases hentries : entries with
  | nil =>
    refine ⟨false, rfl, ?_⟩
    constructor
    · exact fun h => absurd h (by simp)
    · intro h
      cases h with
      | ip _ _ hmem => exact absurd hmem (by simp)
      | host _ _ _ _ hmem => exact absurd hmem (by simp)
  | cons first rest =>
    rw [← hentries]
    rw [if_neg (by simp [hentries])]
    cases hip : codec.ipAddress (strip reference) with
    | some address =>
      refine ⟨_, resultOf_match, ?_⟩
      rw [List.contains_iff_mem]
      constructor
      · exact fun hmem => .ip address hip hmem
      · intro h
        cases h with
        | ip address' hip' hmem =>
          rw [hip, Option.some.injEq] at hip'
          exact hip' ▸ hmem
        | host _ _ hip' =>
          rw [hip] at hip'
          cases hip'
    | none =>
      cases hname : codec.normalizeDns reference with
      | none =>
        refine ⟨false, rfl, ?_⟩
        constructor
        · exact fun h => absurd h (by simp)
        · intro h
          cases h with
          | ip _ hip' =>
            rw [hip] at hip'
            cases hip'
          | host _ _ _ hname' =>
            rw [hname] at hname'
            cases hname'
      | some name =>
        refine ⟨_, resultOf_match, ?_⟩
        rw [any_namesHost_iff]
        constructor
        · rintro ⟨pattern, hmem, hnames⟩
          exact .host name pattern hip hname hmem hnames
        · intro h
          cases h with
          | ip _ hip' =>
            rw [hip] at hip'
            cases hip'
          | host name' pattern _ hname' hmem hnames =>
            rw [hname, Option.some.injEq] at hname'
            exact ⟨pattern, hmem, hname' ▸ hnames⟩

/-! ## Plain host names -/

def IsAscii (s : String) : Prop := ∀ c ∈ s.toList, c.toNat < 128

/-- ASCII without upper-case letters. -/
def IsLowerAscii (s : String) : Prop :=
  ∀ c ∈ s.toList, c.toNat < 128 ∧ ¬ (65 ≤ c.toNat ∧ c.toNat ≤ 90)

/-- The encoding leaves a label of lower-case ASCII as it is, up to 63 characters. It is what the
encoding does for names in ASCII, and all that is asked of it. -/
def PlainIdna (codec : IdentityCodec) : Prop :=
  ∀ label, label ≠ "" → label.length ≤ 63 → '.' ∉ label.toList → IsLowerAscii label →
    codec.idna label = some label

/-- The name in lower case without the dots at its end. -/
def hostText (reference : String) : String :=
  lower (String.ofList ((strip reference).toList.rdropWhile (· = '.')))

/-- A host name that is written in ASCII. -/
def IsPlainHost (text : String) : Prop :=
  text ≠ "" ∧ text.length ≤ maxDnsName ∧ ' ' ∉ text.toList ∧
    ∀ label ∈ splitOnChar '.' text, label ≠ "" ∧ label.length ≤ 63

instance (text : String) : Decidable (IsPlainHost text) :=
  inferInstanceAs (Decidable (_ ∧ _ ∧ _ ∧ _))

theorem isLowerAscii_lower {s : String} (h : IsAscii s) : IsLowerAscii (lower s) := by
  intro c hc
  have hsigma : 'Σ' ∉ s.toList := fun hmem => absurd (h 'Σ' hmem) (by decide)
  rw [lower, String.toList_ofList, Py.lowerAfter_of_no_sigma hsigma, List.mem_flatMap] at hc
  obtain ⟨source, hsource, hc⟩ := hc
  have hascii := h source hsource
  rw [Py.lowerChar, if_pos hascii, List.mem_singleton] at hc
  subst hc
  split
  · rename_i hupper
    have hvalid : (source.toNat + 32).isValidChar := by
      left
      omega
    rw [Py.toNat_ofNat hvalid]
    omega
  · rename_i hlower
    exact ⟨hascii, hlower⟩

theorem isLowerAscii_hostText {reference : String} (h : IsAscii reference) :
    IsLowerAscii (hostText reference) := by
  apply isLowerAscii_lower
  intro c hc
  rw [String.toList_ofList] at hc
  have hstrip : c ∈ (strip reference).toList := (List.rdropWhile_prefix _ _).subset hc
  rw [strip, String.toList_ofList] at hstrip
  exact h c ((List.dropWhile_suffix _).subset ((List.rdropWhile_prefix _ _).subset hstrip))

theorem mapM_encodeLabel {labels : List String}
    (h : ∀ label ∈ labels, codec.encodeLabel label = some label) :
    labels.mapM codec.encodeLabel = some labels := by
  induction labels with
  | nil => rfl
  | cons label rest ih =>
    rw [List.mapM_cons, h label List.mem_cons_self,
      ih fun other hother => h other (List.mem_cons_of_mem label hother)]
    rfl

theorem mapM_encodeLabel_of_long {labels : List String} {label : String} (hmem : label ∈ labels)
    (hlong : 63 < label.length) : labels.mapM codec.encodeLabel = none := by
  induction labels with
  | nil => exact absurd hmem (by simp)
  | cons first rest ih =>
    rw [List.mapM_cons]
    rcases List.mem_cons.mp hmem with rfl | hrest
    · have hstar : label ≠ "*" := by
        rintro rfl
        exact absurd hlong (by decide)
      rw [IdentityCodec.encodeLabel, if_neg hstar, if_pos hlong]
      rfl
    · rw [ih hrest]
      cases codec.encodeLabel first <;> rfl

theorem encodeLabel_of_plain (hidna : PlainIdna codec) {text label : String}
    (htext : IsLowerAscii text) (hlabel : label ∈ splitOnChar '.' text) (hne : label ≠ "")
    (hlength : label.length ≤ 63) : codec.encodeLabel label = some label := by
  by_cases hstar : label = "*"
  · rw [IdentityCodec.encodeLabel, if_pos hstar]
  · rw [IdentityCodec.encodeLabel, if_neg hstar, if_neg (Nat.not_lt.mpr hlength)]
    exact hidna label hne hlength (Py.sep_notMem_splitOnChar hlabel) fun c hc =>
      htext c (Py.mem_of_mem_splitOnChar hlabel hc)

/-- A reference in ASCII is a host name when it is a plain one, and as it is written. -/
theorem normalizeDns_ascii (hidna : PlainIdna codec) {reference : String}
    (h : IsAscii reference) :
    codec.normalizeDns reference =
      if IsPlainHost (hostText reference) then some (hostText reference) else none := by
  have hlower := isLowerAscii_hostText h
  have hspace : isIn " " (hostText reference) = true ↔ ' ' ∈ (hostText reference).toList := by
    rw [isIn, decide_eq_true_eq]
    exact List.singleton_infix_iff ' ' _
  have hempty : ((splitOnChar '.' (hostText reference)).any (· = "")) = true ↔
      "" ∈ splitOnChar '.' (hostText reference) := by
    simp
  show (if hostText reference = "" ∨ maxDnsName < (hostText reference).length ∨
      isIn " " (hostText reference) = true then none
    else if (splitOnChar '.' (hostText reference)).any (· = "") = true then none
    else ((splitOnChar '.' (hostText reference)).mapM codec.encodeLabel).map (Py.join ".")) = _
  by_cases hplain : IsPlainHost (hostText reference)
  · rw [if_pos hplain]
    obtain ⟨hne, hlength, hnospace, hlabels⟩ := hplain
    have hbounds : ¬ (hostText reference = "" ∨ maxDnsName < (hostText reference).length ∨
        isIn " " (hostText reference) = true) := by
      rw [hspace, not_or, not_or]
      exact ⟨hne, Nat.not_lt.mpr hlength, hnospace⟩
    have hfull : ¬ (splitOnChar '.' (hostText reference)).any (· = "") = true := by
      rw [hempty]
      exact fun hmem => (hlabels "" hmem).1 rfl
    rw [if_neg hbounds, if_neg hfull,
      mapM_encodeLabel fun label hlabel => encodeLabel_of_plain hidna hlower hlabel
        (hlabels label hlabel).1 (hlabels label hlabel).2, Option.map_some,
      Py.join_splitOnChar dot_toList]
  · rw [if_neg hplain]
    split
    · rfl
    · rename_i hbounds
      split
      · rfl
      · rename_i hfull
        rw [hspace, not_or, not_or] at hbounds
        rw [hempty] at hfull
        -- What is left of the reasons is a label that is too long.
        have hlong : ∃ label ∈ splitOnChar '.' (hostText reference), 63 < label.length := by
          by_contra hnone
          refine hplain ⟨hbounds.1, Nat.not_lt.mp hbounds.2.1, hbounds.2.2, ?_⟩
          intro label hlabel
          refine ⟨?_, ?_⟩
          · rintro rfl
            exact hfull hlabel
          · by_contra hlength
            exact hnone ⟨label, hlabel, Nat.not_le.mp hlength⟩
        obtain ⟨label, hlabel, hlength⟩ := hlong
        rw [mapM_encodeLabel_of_long hlabel hlength, Option.map_none]

/-! ## The rule and its edge -/

/-- The reference is there, and it is more than white space. -/
def Present (reference : Option String) : Prop := ∃ text, reference = some text ∧ strip text ≠ ""

/-- **The matcher is the rule of RFC 9525**, for references whose leftmost label is no wildcard. The
right side is the relation of the standard, with the refusal of a label `*` made explicit in it. -/
theorem matchServiceIdentity_rfc9525 (hidna : PlainIdna codec) (reference : Option String)
    (entries : List SanEntry) :
    ((codec.matchServiceIdentity reference entries).match = some true ↔
      ∃ text, reference = some text ∧ strip text ≠ "" ∧ Identifies codec text entries) ∧
    ((codec.matchServiceIdentity reference entries).match = none ↔ ¬ Present reference) ∧
    ∀ text, IsAscii text → codec.normalizeDns text =
      if IsPlainHost (hostText text) then some (hostText text) else none := by
  by_cases hpresent : Present reference
  · obtain ⟨text, rfl, hne⟩ := hpresent
    obtain ⟨matched, hmatch, hiff⟩ := @match_of_reference codec entries text hne
    refine ⟨?_, ?_, fun text => normalizeDns_ascii hidna⟩
    · rw [hmatch, Option.some.injEq, hiff]
      constructor
      · exact fun h => ⟨text, rfl, hne, h⟩
      · rintro ⟨text', htext, -, h⟩
        exact Option.some.inj htext ▸ h
    · rw [hmatch]
      exact ⟨fun h => absurd h (by simp), fun h => absurd ⟨text, rfl, hne⟩ h⟩
  · have hnone : (codec.matchServiceIdentity reference entries).match = none := by
      have hfilter : reference.filter (fun r => strip r ≠ "") = none := by
        rw [Option.filter_eq_none_iff]
        intro text htext hne
        exact hpresent ⟨text, htext, by simpa using hne⟩
      rw [IdentityCodec.matchServiceIdentity, hfilter]
    refine ⟨?_, ?_, fun text => normalizeDns_ascii hidna⟩
    · rw [hnone]
      constructor
      · exact fun h => absurd h (by simp)
      · rintro ⟨text, htext, hne, -⟩
        exact absurd ⟨text, htext, hne⟩ hpresent
    · exact ⟨fun _ => hpresent, fun _ => hnone⟩

/-- The encoding of names in ASCII, for references that are no IP address. -/
def plainCodec : IdentityCodec where
  ipAddress _ := none
  idna := some

theorem plainIdna_plainCodec : PlainIdna plainCodec := fun _ _ _ _ _ => rfl

theorem mail_under_wildcard :
    (plainCodec.matchServiceIdentity (some "Mail.Example.TEST") [.dns "*.example.test"]).match =
      some true := by
  have hname : plainCodec.normalizeDns "Mail.Example.TEST" = some "mail.example.test" := by
    decide +kernel
  refine (matchServiceIdentity_rfc9525 plainIdna_plainCodec _ _).1.mpr
    ⟨_, rfl, by decide, .host _ _ rfl hname List.mem_cons_self ?_⟩
  exact .wildcard "mail" "example.test" rfl (by decide) rfl (by decide) (by decide) (by decide)

/-- A reference with a wildcard of its own is one label before the rest, and not matched. -/
theorem wildcard_reference_refused :
    PlainIdna plainCodec ∧
    plainCodec.normalizeDns "*.example.test" = some ("*" ++ "." ++ "example.test") ∧
    "*" ≠ "" ∧ '.' ∉ "*".toList ∧ '*' ∉ "example.test".toList ∧
    (plainCodec.matchServiceIdentity (some "*.example.test")
      [.dns ("*." ++ "example.test")]).match = some false := by
  refine ⟨plainIdna_plainCodec, ?_, by decide, by decide, by decide, ?_⟩ <;> decide +kernel

end Pki
end SecureMail
