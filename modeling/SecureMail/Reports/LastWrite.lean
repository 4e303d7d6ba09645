import SecureMail.Lib.Calls
import SecureMail.Reports.Admitted

/-!
# The catalog as a map

What the reader shows of a report root is a map from case IDs to reports. A publication that returns
writes its own case in that map, and one that raises writes nothing: it may leave a report file
behind, but no entry of the catalog names it.

The map is the abstract state, and `Stores` is how a root represents it. Two things that are in a
root are not in the map: the order of the catalog, which is by case ID, and the files that no item
names. The simulation is one lemma about one publication, in the three cases of
`publishReport_cases`, and the library makes the statement about a sequence of them. The publisher
of a full catalog refuses new cases and accepts old ones.
-/

namespace SecureMail
namespace Reports

open Py Fallible Calls
open Jobs (isIdentifier)

variable {limits : Limits} {root : ReportRoot} {m : String → Option Bytes} {caseId : String}
  {bytes : Bytes}

/-- `list_reports` and `get_report` show exactly this map. It is all a user of the reader can see,
so the map can be taken for the catalog. -/
structure Shows (limits : Limits) (root : ReportRoot) (m : String → Option Bytes) : Prop where
  get : ∀ caseId, getReport limits root caseId = .ok (m caseId)
  list : ∃ entries, listReports limits root = .ok entries ∧
    (entries.Pairwise fun a b => a.caseId < b.caseId) ∧
    ∀ caseId size, ⟨caseId, size⟩ ∈ entries ↔ ∃ bytes, m caseId = some bytes ∧ bytes.length = size

/-- How the map is stored: the catalog names the cases it has, and their files are there. It asks
for the files of the catalog and says nothing of any other file, since a publication that failed may
have left one. -/
structure Stores (limits : Limits) (root : ReportRoot) (m : String → Option Bytes) : Prop
    extends Wellformed limits root where
  files : ∀ item ∈ items root, ∃ bytes, fileAt root [item.report] = some bytes ∧
    bytes.length ≤ limits.maxReportBytes ∧ m item.caseId = some bytes
  absent : ∀ caseId, (∀ item ∈ items root, item.caseId ≠ caseId) → m caseId = none

namespace Stores

/-- A case is in the catalog exactly if the map has it. -/
theorem exists_item (h : Stores limits root m) (hm : m caseId = some bytes) :
    ∃ item ∈ items root, item.caseId = caseId := by
  by_contra hnone
  have habsent := h.absent caseId fun item hitem heq => hnone ⟨item, hitem, heq⟩
  rw [habsent] at hm
  cases hm

theorem safeSize_eq (h : Stores limits root m) {item : CatalogItem} (hitem : item ∈ items root) :
    ∃ bytes, m item.caseId = some bytes ∧ safeSize limits root [item.report] = .ok bytes.length := by
  obtain ⟨bytes, hfile, hle, hm⟩ := h.files item hitem
  refine ⟨bytes, hm, ?_⟩
  unfold safeSize
  rw [hfile]
  exact if_neg (not_lt.mpr hle)

theorem readReport_eq (h : Stores limits root m) {item : CatalogItem} (hitem : item ∈ items root) :
    ∃ bytes, m item.caseId = some bytes ∧ readReport limits root [item.report] = .ok bytes := by
  obtain ⟨bytes, hfile, hle, hm⟩ := h.files item hitem
  refine ⟨bytes, hm, ?_⟩
  unfold readReport
  rw [hfile]
  exact if_neg (not_lt.mpr hle)

theorem getReport_eq (h : Stores limits root m) (hfits : limits.maxReportCount ≤ 2048)
    (caseId : String) : getReport limits root caseId = .ok (m caseId) := by
  obtain ⟨paths, hpaths, hentries⟩ := h.loadCatalogPaths hfits
  unfold getReport
  rw [hpaths]
  simp only [bind, Except.bind]
  cases hget : paths.get? caseId with
  | none =>
    rw [h.absent caseId]
    · rfl
    · intro item hitem heq
      have hmem : (item.caseId, [item.report]) ∈ paths.entries := by
        rw [hentries]
        exact List.mem_map.mpr ⟨item, hitem, rfl⟩
      rw [heq, Dict.mem_entries_iff, hget] at hmem
      cases hmem
  | some path =>
    rw [← Dict.mem_entries_iff, hentries] at hget
    obtain ⟨item, hitem, hentry⟩ := List.mem_map.mp hget
    obtain ⟨rfl, rfl⟩ := Prod.mk.inj hentry
    obtain ⟨bytes, hm, hread⟩ := h.readReport_eq hitem
    show (do return some (← readReport limits root [item.report])) = _
    rw [hread, hm]
    rfl

/-- The entry that the reader makes of an item. -/
def entryOf (m : String → Option Bytes) (item : CatalogItem) : ReportCatalogEntry :=
  ⟨item.caseId, ((m item.caseId).getD []).length⟩

theorem listReports_eq (h : Stores limits root m) (hfits : limits.maxReportCount ≤ 2048) :
    listReports limits root = .ok ((items root).map (entryOf m)) := by
  obtain ⟨paths, hpaths, hentries⟩ := h.loadCatalogPaths hfits
  have hmap : (paths.entries.mapM fun (item : String × List String) => do
      return (⟨item.1, ← safeSize limits root item.2⟩ : ReportCatalogEntry)) =
      .ok ((items root).map (entryOf m)) := by
    rw [hentries, List.mapM_map]
    refine mapM_eq_ok_map ?_
    intro item hitem
    obtain ⟨bytes, hm, hsize⟩ := h.safeSize_eq hitem
    show (do return (⟨item.caseId, ← safeSize limits root [item.report]⟩ : ReportCatalogEntry)) = _
    rw [hsize, entryOf, hm]
    rfl
  have hsorted : ((items root).map (entryOf m)).Pairwise (SortKey.Before entryOrder) := by
    rw [List.pairwise_map]
    refine h.sorted.imp ?_
    intro a b hab
    have hcompare : compare a.caseId b.caseId = .lt := compareOfLessAndEq_eq_lt.mpr hab
    show (compare a.caseId b.caseId).isLE = true
    rw [hcompare]
    rfl
  unfold listReports
  rw [hpaths]
  show (do
    let entries ← paths.entries.mapM fun (item : String × List String) => do
      return (⟨item.1, ← safeSize limits root item.2⟩ : ReportCatalogEntry)
    return entries.insertionSort (SortKey.Before entryOrder)) = _
  rw [hmap]
  exact congrArg Except.ok (SortKey.insertionSort_of_pairwise hsorted)

theorem mem_entries_iff (h : Stores limits root m) {caseId : String} {size : Nat} :
    ⟨caseId, size⟩ ∈ (items root).map (entryOf m) ↔
      ∃ bytes, m caseId = some bytes ∧ bytes.length = size := by
  rw [List.mem_map]
  constructor
  · rintro ⟨item, hitem, hentry⟩
    obtain ⟨rfl, hsize⟩ := ReportCatalogEntry.mk.inj hentry
    obtain ⟨bytes, -, -, hm⟩ := h.files item hitem
    rw [hm] at hsize
    exact ⟨bytes, hm, hsize⟩
  · rintro ⟨bytes, hm, hsize⟩
    obtain ⟨item, hitem, rfl⟩ := h.exists_item hm
    refine ⟨item, hitem, ?_⟩
    rw [entryOf, hm]
    exact congrArg _ hsize

theorem shows (h : Stores limits root m) (hfits : limits.maxReportCount ≤ 2048) :
    Shows limits root m :=
  ⟨h.getReport_eq hfits, _, h.listReports_eq hfits, by
    rw [List.pairwise_map]
    exact h.sorted, fun _ _ => h.mem_entries_iff⟩

end Stores

/-! ## One publication -/

theorem mem_withItem {reports : List CatalogItem} {item : CatalogItem} :
    item ∈ withItem reports caseId ↔
      (item ∈ reports ∧ item.caseId ≠ caseId) ∨ item = ⟨caseId, reportFilename caseId⟩ := by
  simp [withItem, List.mem_insertionSort]

theorem withItem_sorted {reports : List CatalogItem}
    (hnodup : (reports.map (·.caseId)).Nodup) :
    (withItem reports caseId).Pairwise fun a b => a.caseId < b.caseId := by
  have hperm : (withItem reports caseId).Perm
      ((reports.filter fun item => item.caseId ≠ caseId) ++ [⟨caseId, reportFilename caseId⟩]) :=
    List.perm_insertionSort _ _
  have hdistinct : ((withItem reports caseId).map (·.caseId)).Nodup := by
    rw [(hperm.map _).nodup_iff, List.map_append, List.nodup_append]
    refine ⟨(List.filter_sublist.map _).nodup hnodup, List.nodup_singleton _, ?_⟩
    intro a ha b hb heq
    obtain ⟨item, hitem, rfl⟩ := List.mem_map.mp ha
    have hne := of_decide_eq_true (List.mem_filter.mp hitem).2
    exact hne (heq.trans (List.mem_singleton.mp hb))
  have hordered : (withItem reports caseId).Pairwise (SortKey.Before itemOrder) :=
    SortKey.pairwise_insertionSort _
  rw [List.Nodup, List.pairwise_map] at hdistinct
  refine (hordered.and hdistinct).imp ?_
  rintro a b ⟨hle, hne⟩
  have hcompare : compare a.caseId b.caseId ≠ .eq := fun heq => hne (Std.LawfulEqOrd.eq_of_compare heq)
  have hle' : (compare a.caseId b.caseId).isLE = true := hle
  refine compareOfLessAndEq_eq_lt.mp (show compare a.caseId b.caseId = .lt from ?_)
  cases hab : compare a.caseId b.caseId with
  | lt => rfl
  | eq => exact absurd hab hcompare
  | gt =>
    rw [hab] at hle'
    cases hle'

/-- Replacing an item makes the catalog no longer. -/
theorem length_withItem_le {reports : List CatalogItem} {item : CatalogItem}
    (hitem : item ∈ reports) : (withItem reports item.caseId).length ≤ reports.length := by
  have hfilter : (reports.filter fun other => other.caseId ≠ item.caseId).length < reports.length :=
    List.length_filter_lt_length_iff_exists.mpr ⟨item, hitem, by simp⟩
  have hlength : (withItem reports item.caseId).length =
      (reports.filter fun other => other.caseId ≠ item.caseId).length + 1 := by
    simp [withItem, List.length_insertionSort]
  omega

/-- The root with the report in its place and the catalog as it was. -/
def withReport (root : ReportRoot) (caseId : String) (bytes : Bytes) : ReportDir :=
  { root.getD {} with files := (root.getD {}).files.set (reportFilename caseId) bytes }

theorem catalog_withReport : (withReport root caseId bytes).catalog = root.bind (·.catalog) := by
  cases root <;> rfl

theorem fileAt_withCatalog {catalog : Option Catalog} {name : String} :
    fileAt (some { withReport root caseId bytes with catalog := catalog }) [name] =
      if name = reportFilename caseId then some bytes else fileAt root [name] := by
  cases root with
  | none => exact Dict.get?_set _ _ _ _
  | some dir => exact Dict.get?_set _ _ _ _

theorem items_withReport : items (some (withReport root caseId bytes)) = items root := by
  cases root <;> rfl

theorem fileAt_withReport {name : String} :
    fileAt (some (withReport root caseId bytes)) [name] =
      if name = reportFilename caseId then some bytes else fileAt root [name] :=
  fileAt_withCatalog

theorem Wellformed.withReport (h : Wellformed limits root) :
    Wellformed limits (some (withReport root caseId bytes)) := by
  constructor
  · intro catalog hcatalog
    exact h.schema catalog (catalog_withReport ▸ hcatalog)
  · rw [items_withReport]
    exact h.published
  · rw [items_withReport]
    exact h.sorted
  · rw [items_withReport]
    exact h.count

/-- A report whose case is not in the catalog is not seen. -/
theorem Stores.withReport (h : Stores limits root m) (hnew : ∀ item ∈ items root, item.caseId ≠ caseId) :
    Stores limits (some (withReport root caseId bytes)) m := by
  constructor
  · exact h.toWellformed.withReport
  · intro item hitem
    rw [items_withReport] at hitem
    obtain ⟨old, hfile, hle, hm⟩ := h.files item hitem
    refine ⟨old, ?_, hle, hm⟩
    have hne : item.report ≠ reportFilename caseId := by
      rw [(h.published item hitem).2]
      intro heq
      exact hnew item hitem (reportFilename_injective heq)
    rw [fileAt_withReport, if_neg hne]
    exact hfile
  · rw [items_withReport]
    exact h.absent

/-- A report that the catalog comes to name is written. -/
theorem Stores.publish (h : Stores limits root m) (hid : isIdentifier caseId = true)
    (hbytes : bytes.length ≤ limits.maxReportBytes)
    (hcount : (withItem (items root) caseId).length ≤ limits.maxReportCount) :
    Stores limits
      (some { Reports.withReport root caseId bytes with
        catalog := some ⟨catalogSchemaVersion, withItem (items root) caseId⟩ })
      (write m (caseId, bytes)) := by
  constructor
  · constructor
    · intro catalog hcatalog
      obtain rfl := Option.some.inj hcatalog
      rfl
    · intro item hitem
      rcases mem_withItem.mp hitem with ⟨hold, -⟩ | rfl
      · exact h.published item hold
      · exact ⟨hid, rfl⟩
    · exact withItem_sorted h.nodup
    · exact hcount
  · intro item hitem
    rw [fileAt_withCatalog]
    rcases mem_withItem.mp hitem with ⟨hold, hne⟩ | rfl
    · obtain ⟨old, hfile, hle, hm⟩ := h.files item hold
      have hname : item.report ≠ reportFilename caseId := by
        rw [(h.published item hold).2]
        intro heq
        exact hne (reportFilename_injective heq)
      rw [if_neg hname, write_of_ne m bytes hne]
      exact ⟨old, hfile, hle, hm⟩
    · rw [if_pos rfl, write_self]
      exact ⟨bytes, rfl, hbytes, rfl⟩
  · intro other hother
    have hne : other ≠ caseId := by
      rintro rfl
      exact hother _ (mem_withItem.mpr (Or.inr rfl)) rfl
    rw [write_of_ne m bytes hne]
    refine h.absent other ?_
    intro item hitem heq
    refine hother item (mem_withItem.mpr (Or.inl ⟨hitem, ?_⟩)) heq
    rw [heq]
    exact hne

/-- A report whose case is in the catalog is seen at once. -/
theorem Stores.overwrite (h : Stores limits root m) {item : CatalogItem} (hitem : item ∈ items root)
    (hbytes : bytes.length ≤ limits.maxReportBytes) :
    Stores limits (some (Reports.withReport root item.caseId bytes)) (write m (item.caseId, bytes)) := by
  constructor
  · exact h.toWellformed.withReport
  · intro other hother
    rw [items_withReport] at hother
    rw [fileAt_withReport]
    by_cases hcase : other.caseId = item.caseId
    · rw [if_pos (by rw [(h.published other hother).2, hcase]), hcase, write_self]
      exact ⟨bytes, rfl, hbytes, rfl⟩
    · have hname : other.report ≠ reportFilename item.caseId := by
        rw [(h.published other hother).2]
        intro heq
        exact hcase (reportFilename_injective heq)
      rw [if_neg hname, write_of_ne m bytes hcase]
      exact h.files other hother
  · intro caseId habsent
    rw [items_withReport] at habsent
    rw [write_of_ne m bytes (habsent item hitem).symm]
    exact h.absent caseId habsent

/-- A directory with nothing in it is as good as none. -/
theorem Stores.create (h : Stores limits none m) : Stores limits (some {}) m := by
  constructor
  · constructor
    · intro catalog hcatalog
      cases hcatalog
    · exact h.published
    · exact h.sorted
    · exact h.count
  · intro item hitem
    cases hitem
  · exact h.absent

/-- `publish_report` as a call of one argument. -/
def publish (limits : Limits) (root : ReportRoot) (report : String × Bytes) :
    Checked Unit × ReportRoot :=
  publishReport limits root report.1 report.2

theorem loadItems_withReport (h : Wellformed limits root) :
    loadItems (withReport root caseId bytes) = .ok (items root) := by
  unfold loadItems
  rw [catalog_withReport]
  cases hcatalog : root.bind (·.catalog) with
  | none => simp [items, hcatalog]
  | some catalog => simp [items, hcatalog, h.schema catalog hcatalog]

/-- What a publication can do to a catalog of the publisher: refuse the report, put it in its place
and find the catalog full, or publish it. -/
theorem publishReport_cases (h : Wellformed limits root) (caseId : String) (bytes : Bytes) :
    (∃ e, publishReport limits root caseId bytes = (.error e, root)) ∨
    (∃ e, publishReport limits root caseId bytes = (.error e, some (withReport root caseId bytes)) ∧
      limits.maxReportCount < (withItem (items root) caseId).length) ∨
    (publishReport limits root caseId bytes =
        (.ok (), some { withReport root caseId bytes with
          catalog := some ⟨catalogSchemaVersion, withItem (items root) caseId⟩ }) ∧
      isIdentifier caseId = true ∧ bytes.length ≤ limits.maxReportBytes ∧
      (withItem (items root) caseId).length ≤ limits.maxReportCount) := by
  have hload : loadItems (withReport root caseId bytes) = .ok (items root) := loadItems_withReport h
  unfold withReport at hload
  unfold publishReport
  by_cases hid : isIdentifier caseId = true
  · by_cases hbytes : limits.maxReportBytes < bytes.length
    · left
      exact ⟨_, by simp only [hid, hbytes, not_true_eq_false, if_false, if_true]; rfl⟩
    · by_cases hcount : limits.maxReportCount < (withItem (items root) caseId).length
      · right; left
        exact ⟨_, by simp only [hid, hbytes, hload, hcount, not_true_eq_false, if_false, if_true]; rfl,
          hcount⟩
      · right; right
        refine ⟨?_, hid, not_lt.mp hbytes, not_lt.mp hcount⟩
        simp only [hid, hbytes, hload, hcount, not_true_eq_false, if_false]
        rfl
  · left
    exact ⟨_, if_pos hid⟩

/-- **A publication writes its case or nothing.** It is the step of the simulation, and it has the
failures in it. -/
theorem publish_refines (limits : Limits) : StepRefines (Stores limits) (publish limits) write := by
  rintro root m ⟨caseId, bytes⟩ h
  unfold publish
  rcases publishReport_cases h.toWellformed caseId bytes with
    ⟨e, hcall⟩ | ⟨e, hcall, hfull⟩ | ⟨hcall, hid, hbytes, hcount⟩
  · rw [hcall]
    exact h
  · rw [hcall]
    refine h.withReport ?_
    rintro item hitem rfl
    -- A case that is in the catalog already does not make it longer.
    have hle := length_withItem_le hitem
    have hlimit := h.count
    omega
  · rw [hcall]
    exact h.publish hid hbytes hcount

/-! ## All publications -/

/-- A report root with nothing in it, which may be there already or not. -/
def emptyRoot (created : Bool) : ReportRoot := if created then some {} else none

theorem stores_emptyRoot (limits : Limits) (created : Bool) :
    Stores limits (emptyRoot created) fun _ => none := by
  have hitems : items (emptyRoot created) = [] := by cases created <;> rfl
  constructor
  · constructor
    · intro catalog hcatalog
      cases created <;> cases hcatalog
    · simp [hitems]
    · simp [hitems]
    · simp [hitems]
  · simp [hitems]
  · simp

/-- **The catalog is a last-write-wins map.** After any calls of `publish_report` the reader shows
the map that the calls which returned have written. And of the next call it shows its own case in
what it showed before, if the call returns, or what it showed before. -/
theorem catalog_refines_lastWrite (created : Bool) (reports : List (String × Bytes)) :
    let written := runCalls (publish {}) (emptyRoot created) reports
    Shows {} written.1 (lastWrite written.2) ∧
      ∀ caseId bytes,
        match publishReport {} written.1 caseId bytes with
        | (.ok _, next) => Shows {} next (Function.update (lastWrite written.2) caseId (some bytes))
        | (.error _, next) => Shows {} next (lastWrite written.2) := by
  intro written
  have hfits : ({} : Limits).maxReportCount ≤ 2048 := by decide
  have hstores : Stores {} written.1 (lastWrite written.2) :=
    (publish_refines {}).run (stores_emptyRoot {} created)
  refine ⟨hstores.shows hfits, ?_⟩
  intro caseId bytes
  have hstep := publish_refines {} written.1 _ (caseId, bytes) hstores
  unfold publish at hstep
  rcases hcall : publishReport {} written.1 caseId bytes with ⟨result, next⟩
  rw [hcall] at hstep
  cases result with
  | ok _ => exact Stores.shows hstep hfits
  | error _ => exact Stores.shows hstep hfits

end Reports
end SecureMail
