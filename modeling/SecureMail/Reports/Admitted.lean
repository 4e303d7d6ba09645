import SecureMail.Reports.Catalog

/-!
# What the publisher writes, the reader admits

The reader checks the size of the catalog, its items and the path of each. The items the publisher
makes pass every check: a case ID has no character that JSON escapes or a path is split at, and the
file name derived from it is its own.

The size is the check that needs an argument, because the limit is one on bytes and what is counted
is reports. An item has a bounded text, its case ID having a bounded length and no character that is
written as more than one, so a catalog of at most 2048 items is below the limit (`catalogText_le`).
The default number of reports is 256. With a larger limit than 2048 the publisher could write a
catalog that its reader refuses.
-/

namespace SecureMail
namespace Reports

open Py Fallible
open Jobs (isIdentifier isIdChar isAsciiAlnum)

/-! ## Case IDs -/

/-- An ID character is printable ASCII, and none of those with a meaning in JSON or in a path. -/
theorem isIdChar_range {c : Char} (h : isIdChar c = true) :
    (0x2d ≤ c.toNat ∧ c.toNat ≤ 0x7a) ∧ c.toNat ≠ 0x2f ∧ c.toNat ≠ 0x5c := by
  simp only [isIdChar, isAsciiAlnum, Bool.or_eq_true, Bool.and_eq_true, decide_eq_true_eq,
    beq_iff_eq, Char.le_def, UInt32.le_iff_toNat_le] at h
  rcases h with (((((hrange | hrange) | hrange) | rfl) | rfl) | rfl)
  · have hlow : 0x41 ≤ c.toNat := hrange.1
    have hhigh : c.toNat ≤ 0x5a := hrange.2
    omega
  · have hlow : 0x61 ≤ c.toNat := hrange.1
    have hhigh : c.toNat ≤ 0x7a := hrange.2
    omega
  · have hlow : 0x30 ≤ c.toNat := hrange.1
    have hhigh : c.toNat ≤ 0x39 := hrange.2
    omega
  all_goals decide

theorem jsonChar_of_isIdChar {c : Char} (h : isIdChar c = true) : jsonChar c = [c] := by
  obtain ⟨⟨hlow, hhigh⟩, -, hbackslash⟩ := isIdChar_range h
  have hne : ∀ d : Char, d.toNat < 0x2d ∨ d.toNat = 0x5c → c ≠ d := by
    rintro d hd rfl
    omega
  unfold jsonChar
  rw [if_neg (hne _ (by decide)), if_neg (hne _ (by decide)), if_neg (hne _ (by decide)),
    if_neg (hne _ (by decide)), if_neg (hne _ (by decide)), if_neg (hne _ (by decide)),
    if_neg (hne _ (by decide)), if_pos (by omega)]

theorem jsonString_of_isIdChar {s : String} (h : ∀ c ∈ s.toList, isIdChar c = true) :
    (jsonString s).length = s.length + 2 := by
  have hchars : s.toList.flatMap jsonChar = s.toList := by
    rw [List.flatMap_congr fun c hc => jsonChar_of_isIdChar (h c hc), List.flatMap_singleton']
  simp [jsonString, hchars, String.length_toList]

section

variable {caseId : String} (h : isIdentifier caseId = true)

include h

theorem isIdentifier_chars :
    ∃ first rest, caseId.toList = first :: rest ∧ isAsciiAlnum first = true ∧
      (∀ c ∈ rest, isIdChar c = true) ∧ rest.length ≤ 159 := by
  unfold isIdentifier at h
  cases hchars : caseId.toList with
  | nil => simp [hchars] at h
  | cons first rest =>
    rw [hchars] at h
    simp only [Bool.and_eq_true, List.all_eq_true, decide_eq_true_eq] at h
    exact ⟨first, rest, rfl, h.1.1, h.1.2, h.2⟩

theorem isIdChar_of_mem {c : Char} (hc : c ∈ caseId.toList) : isIdChar c = true := by
  obtain ⟨first, rest, hchars, hfirst, hrest, -⟩ := isIdentifier_chars h
  rw [hchars] at hc
  rcases List.mem_cons.mp hc with rfl | hc
  · exact Jobs.isIdChar_of_isAsciiAlnum hfirst
  · exact hrest c hc

theorem isIdChar_of_mem_reportFilename {c : Char} (hc : c ∈ (reportFilename caseId).toList) :
    isIdChar c = true := by
  rw [reportFilename, String.toList_append] at hc
  rcases List.mem_append.mp hc with hc | hc
  · exact isIdChar_of_mem h hc
  · have hall : ".report.json".toList.all isIdChar = true := by decide
    exact List.all_eq_true.mp hall c hc

theorem length_caseId : 1 ≤ caseId.length ∧ caseId.length ≤ 160 := by
  obtain ⟨first, rest, hchars, -, -, hlength⟩ := isIdentifier_chars h
  rw [← String.length_toList, hchars, List.length_cons]
  omega

omit h in
theorem length_reportFilename : (reportFilename caseId).length = caseId.length + 12 := by
  rw [reportFilename, String.length_append]
  rfl

/-! ## Paths -/

theorem pathParts_reportFilename : pathParts (reportFilename caseId) = [reportFilename caseId] := by
  have hslash : ∀ c ∈ (reportFilename caseId).toList, (c == '/') = false := by
    intro c hc
    have hrange := isIdChar_range (isIdChar_of_mem_reportFilename h hc)
    rw [beq_eq_false_iff_ne]
    rintro rfl
    exact hrange.2.1 rfl
  have hlength : (reportFilename caseId).length = caseId.length + 12 := length_reportFilename
  have hempty : reportFilename caseId ≠ "" := by
    intro heq
    rw [heq] at hlength
    simp at hlength
  have hdot : reportFilename caseId ≠ "." := by
    intro heq
    rw [heq] at hlength
    have hone : ".".length = 1 := rfl
    omega
  unfold pathParts splitOnChar
  rw [List.splitOn, List.splitOnP_eq_singleton hslash]
  simp [hempty, hdot]

omit h in
theorem suffix_reportFilename : suffix (reportFilename caseId) = ".json" := by
  have hchars : (reportFilename caseId).toList =
      (caseId.toList ++ ".report".toList) ++ ['.', 'j', 's', 'o', 'n'] := by
    rw [reportFilename, String.toList_append, List.append_assoc]
    rfl
  have hextension : (reportFilename caseId).toList.rtakeWhile (· ≠ '.') = ['j', 's', 'o', 'n'] := by
    rw [hchars]
    simp [List.rtakeWhile]
  have hlong : 4 + 1 < (reportFilename caseId).length := by
    rw [length_reportFilename]
    omega
  unfold suffix
  rw [hextension, if_pos ⟨by decide, hlong⟩]

theorem validatedReportPath_reportFilename :
    validatedReportPath (reportFilename caseId) = .ok [reportFilename caseId] := by
  obtain ⟨first, rest, hchars, hfirst, -⟩ := isIdentifier_chars h
  have hlength : (reportFilename caseId).length = caseId.length + 12 := length_reportFilename
  have hrelative : startsWith (reportFilename caseId) "/" = false := by
    have hne : first ≠ '/' := by
      rintro rfl
      exact absurd hfirst (by decide)
    have hslash : "/".toList = ['/'] := rfl
    simp [startsWith, reportFilename, hchars, hslash, List.isPrefixOf, hne.symm]
  have hne : ∀ s : String, s.length < 12 + 1 → s ≠ reportFilename caseId := by
    rintro s hs rfl
    have hcaseId := (length_caseId h).1
    omega
  have hlower : lower ".json" = ".json" := by decide +kernel
  unfold validatedReportPath
  rw [pathParts_reportFilename h]
  simp [hrelative, hne ".." (by decide), hne "." (by decide), suffix_reportFilename, hlower,
    (hne catalogFilename (by decide)).symm]

end

theorem reportFilename_injective : Function.Injective reportFilename := by
  intro a b hab
  exact (String.append_left_inj _).mp hab

/-! ## The items of the catalog -/

/-- An item as `publish_report` makes it. -/
def Published (item : CatalogItem) : Prop :=
  isIdentifier item.caseId = true ∧ item.report = reportFilename item.caseId

theorem Published.valid {item : CatalogItem} (h : Published item) : item.valid = true := by
  obtain ⟨hid, hreport⟩ := h
  have hcaseId := length_caseId hid
  have hlength : item.report.length = item.caseId.length + 12 := by
    rw [hreport, length_reportFilename]
  simp only [CatalogItem.valid, Bool.and_eq_true, decide_eq_true_eq]
  omega

theorem length_itemText (item : CatalogItem) : item.text.length =
    23 + (jsonString item.caseId).length + 18 + (jsonString item.report).length + 6 := by
  have hopen : "    \x7b\n      \"case_id\": ".toList.length = 23 := by decide +kernel
  have hmiddle : ",\n      \"report\": ".toList.length = 18 := by decide +kernel
  have hclose : "\n    \x7d".toList.length = 6 := by decide +kernel
  unfold CatalogItem.text
  rw [List.length_append, List.length_append, List.length_append, List.length_append, hopen,
    hmiddle, hclose]

theorem Published.length_text {item : CatalogItem} (h : Published item) : item.text.length ≤ 383 := by
  obtain ⟨hid, hreport⟩ := h
  have hcaseId := length_caseId hid
  rw [length_itemText, hreport, jsonString_of_isIdChar fun c hc => isIdChar_of_mem hid hc,
    jsonString_of_isIdChar fun c hc => isIdChar_of_mem_reportFilename hid hc,
    length_reportFilename]
  omega

theorem length_reportsText {items : List CatalogItem} (h : ∀ item ∈ items, Published item) :
    (reportsText items).length ≤ 385 * items.length + 8 := by
  have hrest : ∀ {rest : List CatalogItem}, (∀ item ∈ rest, Published item) →
      (rest.flatMap fun item => ",\n".toList ++ item.text).length ≤ 385 * rest.length := by
    intro rest
    induction rest with
    | nil =>
      intro _
      simp
    | cons item rest ih =>
      intro hall
      have hitem := (hall item List.mem_cons_self).length_text
      have htail := ih fun item hitem => hall item (List.mem_cons_of_mem _ hitem)
      have hcomma : ",\n".toList.length = 2 := by decide +kernel
      simp only [List.flatMap_cons, List.length_append, List.length_cons, hcomma]
      omega
  cases items with
  | nil =>
    unfold reportsText
    decide
  | cons item rest =>
    have hitem := (h item List.mem_cons_self).length_text
    have htail := hrest fun item hitem => h item (List.mem_cons_of_mem _ hitem)
    have hopen : "[\n".toList.length = 2 := by decide +kernel
    have hclose : "\n  ]".toList.length = 4 := by decide +kernel
    unfold reportsText
    simp only [List.length_append, List.length_cons, hopen, hclose]
    omega

theorem length_catalogText (reports : List CatalogItem) :
    (Catalog.text ⟨catalogSchemaVersion, reports⟩).length = 15 + (reportsText reports).length + 55 := by
  have hopen : "\x7b\n  \"reports\": ".toList.length = 15 := by decide +kernel
  have hclose : (",\n  \"schema_version\": ".toList ++ jsonString catalogSchemaVersion ++
      "\n\x7d\n".toList).length = 55 := by decide +kernel
  unfold Catalog.text
  rw [List.append_assoc, List.append_assoc, ← List.append_assoc _ (jsonString _),
    List.length_append, List.length_append, hopen, hclose]

/-- A catalog of this many entries is a file that the reader reads. -/
theorem catalogText_le {items : List CatalogItem} (h : ∀ item ∈ items, Published item)
    (hcount : items.length ≤ 2048) :
    (Catalog.text ⟨catalogSchemaVersion, items⟩).length ≤ maxCatalogBytes := by
  have hreports := length_reportsText h
  rw [length_catalogText, maxCatalogBytes]
  omega

/-! ## The loop of the reader -/

/-- The file of an item. -/
def pathEntry (item : CatalogItem) : String × List String := (item.caseId, [item.report])

theorem addItem_eq_ok {acc : Paths} {item : CatalogItem} (h : Published item)
    (hnew : item.caseId ∉ acc.paths.keys) (hunused : [item.report] ∉ acc.used) :
    addItem acc item = .ok ⟨acc.paths.set item.caseId [item.report], [item.report] :: acc.used⟩ := by
  obtain ⟨hid, hreport⟩ := h
  have hpath : validatedReportPath item.report = .ok [item.report] := by
    rw [hreport]
    exact validatedReportPath_reportFilename hid
  unfold addItem
  rw [hpath]
  simp only [hid, not_true_eq_false, if_false, hnew]
  show (if [item.report] ∈ acc.used then _ else _) = _
  rw [if_neg hunused]
  rfl

/-- Published items of different cases all get through, in their order. -/
theorem foldlM_addItem {items : List CatalogItem} :
    ∀ {acc : Paths}, (∀ item ∈ items, Published item) → (items.map (·.caseId)).Nodup →
      (∀ item ∈ items, item.caseId ∉ acc.paths.keys) →
      (∀ path ∈ acc.used, ∃ caseId ∈ acc.paths.keys, path = [reportFilename caseId]) →
      ∃ acc', items.foldlM addItem acc = .ok acc' ∧
        acc'.paths.entries = acc.paths.entries ++ items.map pathEntry := by
  induction items with
  | nil =>
    intro acc _ _ _ _
    exact ⟨acc, rfl, by simp⟩
  | cons item rest ih =>
    intro acc hpublished hnodup hnew hused
    rw [List.map_cons, List.nodup_cons] at hnodup
    have hitem := hpublished item List.mem_cons_self
    have hitemNew := hnew item List.mem_cons_self
    have hunused : [item.report] ∉ acc.used := by
      intro hmem
      obtain ⟨caseId, hkey, hpath⟩ := hused _ hmem
      rw [hitem.2] at hpath
      have hsame := reportFilename_injective (List.cons.inj hpath).1
      exact hitemNew (hsame ▸ hkey)
    have hstep := addItem_eq_ok hitem hitemNew hunused
    obtain ⟨acc', hrest, hentries⟩ :=
      @ih ⟨acc.paths.set item.caseId [item.report], [item.report] :: acc.used⟩
        (fun other hother => hpublished other (List.mem_cons_of_mem _ hother)) hnodup.2
        (by
          intro other hother hkey
          rcases Dict.mem_keys_set.mp hkey with heq | hkey
          · exact hnodup.1 (List.mem_map.mpr ⟨other, hother, heq⟩)
          · exact hnew other (List.mem_cons_of_mem _ hother) hkey)
        (by
          intro path hpath
          rcases List.mem_cons.mp hpath with rfl | hpath
          · exact ⟨item.caseId, Dict.mem_keys_set.mpr (Or.inl rfl), by rw [hitem.2]⟩
          · obtain ⟨caseId, hkey, rfl⟩ := hused path hpath
            exact ⟨caseId, Dict.mem_keys_set.mpr (Or.inr hkey), rfl⟩)
    refine ⟨acc', foldlM_cons_eq_ok.mpr ⟨_, hstep, hrest⟩, ?_⟩
    rw [hentries, Dict.entries_set_of_not_mem _ hitemNew, List.map_cons, List.append_assoc]
    rfl

/-- The items of a catalog, of which there may be none yet. -/
def items (root : ReportRoot) : List CatalogItem :=
  ((root.bind (·.catalog)).map (·.reports)).getD []

/-- The catalogs that the publisher writes: items as it makes them, by case ID, no more than the
limit. -/
structure Wellformed (limits : Limits) (root : ReportRoot) : Prop where
  schema : ∀ catalog, root.bind (·.catalog) = some catalog →
    catalog.schemaVersion = catalogSchemaVersion
  published : ∀ item ∈ items root, Published item
  sorted : (items root).Pairwise fun a b => a.caseId < b.caseId
  count : (items root).length ≤ limits.maxReportCount

theorem Wellformed.nodup {limits : Limits} {root : ReportRoot} (h : Wellformed limits root) :
    ((items root).map (·.caseId)).Nodup := by
  rw [List.Nodup, List.pairwise_map]
  refine h.sorted.imp ?_
  intro a b hab heq
  rw [heq] at hab
  exact String.lt_irrefl _ hab

/-- **The reader rejects no catalog that the publisher wrote.** The paths that the reader gets are
those of the items, in their order. -/
theorem Wellformed.loadCatalogPaths {limits : Limits} {root : ReportRoot}
    (h : Wellformed limits root) (hfits : limits.maxReportCount ≤ 2048) :
    ∃ paths, loadCatalogPaths limits root = .ok paths ∧
      paths.entries = (items root).map pathEntry := by
  have hnodup := h.nodup
  obtain ⟨hschema, hpublished, -, hcount⟩ := h
  unfold Reports.loadCatalogPaths
  cases hcatalog : root.bind (·.catalog) with
  | none => exact ⟨∅, rfl, by simp [items, hcatalog]; rfl⟩
  | some catalog =>
    have hitems : items root = catalog.reports := by simp [items, hcatalog]
    rw [hitems] at hpublished hcount hnodup ⊢
    have hversion := hschema catalog hcatalog
    have htext : ¬ maxCatalogBytes < catalog.text.length := by
      have hle := catalogText_le hpublished (hcount.trans hfits)
      rw [← hversion] at hle
      exact not_lt.mpr hle
    have hvalid : catalog.reports.all CatalogItem.valid = true :=
      List.all_eq_true.mpr fun item hitem => (hpublished item hitem).valid
    obtain ⟨acc, hloop, hentries⟩ :=
      @foldlM_addItem catalog.reports {} hpublished hnodup (by simp) (by simp)
    refine ⟨acc.paths, ?_, hentries⟩
    simp only [htext, hvalid, hversion, not_lt.mpr hcount, if_false, not_true_eq_false, ne_eq]
    show (do let acc ← catalog.reports.foldlM addItem {}; pure acc.paths) = _
    rw [hloop]
    rfl

end Reports
end SecureMail
