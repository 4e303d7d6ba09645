import SecureMail.Findings.Posture
import SecureMail.Lib.SortKey
import SecureMail.Py.Tally

/-!
# The margins of the coverage

One loop keeps four views of the same counts: over all checks, by protocol, by category, and by
both. Counts add up, as a commutative monoid, and each view is a table of sums of one list
(`Py.Dict.Tabulates`), so that a row is the sum of its cells and a column too, and nothing in the
matrix depends on the order of the checks.

A margin by itself says little: a matrix whose tables are empty has margins that agree. So each
entry is tied to the checks as well, by the relation `StandsFor`, which asks that an entry is there
exactly if there is a check of its key and that it counts each outcome. A table of the loop is one
definition with the key as a parameter (`tableBy`), and the cells are such tables in a table.
-/

namespace SecureMail
namespace Findings

open Py (Dict)
open Py.Dict (Tabulates)

/-! ## Counts -/

namespace CoverageCounts

/-- The count of an outcome. -/
def count (counts : CoverageCounts) : PolicyCheckOutcome → Nat
  | .pass => counts.passedCount
  | .fail => counts.failedCount
  | .unknown => counts.unknownCount
  | .notObservable => counts.notObservableCount

/-- The four counts determine the fifth. -/
theorem ext_count {a b : CoverageCounts} (h : ∀ outcome, a.count outcome = b.count outcome) :
    a = b := by
  obtain ⟨_, _, _, _, _, ha⟩ := a
  obtain ⟨_, _, _, _, _, hb⟩ := b
  have hpass := h .pass
  have hfail := h .fail
  have hunknown := h .unknown
  have hnotObservable := h .notObservable
  simp only [count] at hpass hfail hunknown hnotObservable
  subst hpass hfail hunknown hnotObservable
  simp only [CoverageCounts.mk.injEq, and_self, and_true]
  exact ha.symm.trans hb

instance : Zero CoverageCounts := ⟨zeroCounts⟩

instance : Add CoverageCounts where
  add a b :=
    { applicableCount := a.applicableCount + b.applicableCount
      passedCount := a.passedCount + b.passedCount
      failedCount := a.failedCount + b.failedCount
      unknownCount := a.unknownCount + b.unknownCount
      notObservableCount := a.notObservableCount + b.notObservableCount
      reconcile := by
        have ha := a.reconcile
        have hb := b.reconcile
        omega }

@[simp] theorem count_zero (outcome : PolicyCheckOutcome) :
    (0 : CoverageCounts).count outcome = 0 := by cases outcome <;> rfl

@[simp] theorem count_add (a b : CoverageCounts) (outcome : PolicyCheckOutcome) :
    (a + b).count outcome = a.count outcome + b.count outcome := by cases outcome <;> rfl

instance : AddCommMonoid CoverageCounts where
  add_assoc a b c := ext_count fun outcome => by simp [Nat.add_assoc]
  zero_add a := ext_count fun outcome => by simp
  add_zero a := ext_count fun outcome => by simp
  add_comm a b := ext_count fun outcome => by simp [Nat.add_comm]
  nsmul := nsmulRec

end CoverageCounts

open CoverageCounts

/-- The counts of one check. -/
def countsOf (check : PolicyCheck) : CoverageCounts := increment 0 check.outcome

/-- The counts of a list. -/
def tally (checks : List PolicyCheck) : CoverageCounts := (checks.map countsOf).sum

theorem increment_eq_add (counts : CoverageCounts) (check : PolicyCheck) :
    increment counts check.outcome = counts + countsOf check := by
  apply ext_count
  intro outcome
  rw [count_add]
  cases outcome <;> simp [count, increment, countsOf] <;> rfl

theorem foldl_increment_eq (checks : List PolicyCheck) (counts : CoverageCounts) :
    checks.foldl (fun counts c => increment counts c.outcome) counts = counts + tally checks := by
  induction checks generalizing counts with
  | nil => exact (add_zero counts).symm
  | cons c rest ih =>
    rw [List.foldl_cons, ih, increment_eq_add, add_assoc]
    simp [tally]

theorem count_tally (checks : List PolicyCheck) (outcome : PolicyCheckOutcome) :
    (tally checks).count outcome = checks.countP (·.outcome = outcome) := by
  induction checks with
  | nil => exact count_zero outcome
  | cons c rest ih =>
    have hone : (countsOf c).count outcome = if c.outcome = outcome then 1 else 0 := by
      cases outcome <;> simp [count, countsOf, increment] <;> rfl
    have hcons : tally (c :: rest) = countsOf c + tally rest := by simp [tally]
    rw [hcons, count_add, hone, ih, List.countP_cons, Nat.add_comm]
    simp only [decide_eq_true_eq]

theorem tally_perm {checks other : List PolicyCheck} (h : checks.Perm other) :
    tally other = tally checks := ((h.map countsOf).sum_eq).symm

/-! ## The tables of the loop -/

def protocolOf (check : PolicyCheck) : String := check.protocol.value

def categoryOf (check : PolicyCheck) : String := check.category.value

theorem eq_nil_of_perm {α : Type} {l l' : List α} (h : l.Perm l') : (l' = []) = (l = []) := by
  rw [← List.length_eq_zero_iff, ← List.length_eq_zero_iff, h.length_eq]

/-- The table of one list by a key. -/
def tableBy (key : PolicyCheck → String) (checks : List PolicyCheck) : Dict String CoverageCounts :=
  checks.foldl (fun d c => d.update (key c) zeroCounts (increment · c.outcome)) ∅

theorem tableBy_tabulates (key : PolicyCheck → String) (checks : List PolicyCheck) :
    (tableBy key checks).Tabulates key tally checks := by
  have hvalue : ∀ l, tally l =
      l.foldl (fun counts c => increment counts c.outcome) (tally []) := by
    intro l
    rw [foldl_increment_eq]
    exact (zero_add _).symm
  exact Dict.tabulates_foldl hvalue checks

theorem get?_tableBy_perm {key : PolicyCheck → String} {checks other : List PolicyCheck}
    (h : checks.Perm other) (k : String) :
    (tableBy key other).get? k = (tableBy key checks).get? k := by
  have hfilter := h.filter (key · = k)
  rw [tableBy_tabulates key other k, tableBy_tabulates key checks k, tally_perm hfilter]
  simp only [eq_nil_of_perm hfilter]

theorem foldl_add_eq (checks : List PolicyCheck) (tables : CoverageTables) :
    let result := checks.foldl CoverageTables.add tables
    result.overall = checks.foldl (fun counts c => increment counts c.outcome) tables.overall ∧
      result.byProtocol = checks.foldl (fun d c => d.update (protocolOf c) zeroCounts
        (increment · c.outcome)) tables.byProtocol ∧
      result.byCategory = checks.foldl (fun d c => d.update (categoryOf c) zeroCounts
        (increment · c.outcome)) tables.byCategory ∧
      result.byCell = checks.foldl (fun d c => d.update (protocolOf c) ∅
        (·.update (categoryOf c) zeroCounts (increment · c.outcome))) tables.byCell := by
  induction checks generalizing tables with
  | nil => exact ⟨rfl, rfl, rfl, rfl⟩
  | cons c rest ih => exact ih (tables.add c)

/-- What the loop leaves, table by table. -/
theorem tables_eq (checks : List PolicyCheck) :
    let tables := checks.foldl CoverageTables.add {}
    tables.overall = tally checks ∧ tables.byProtocol = tableBy protocolOf checks ∧
      tables.byCategory = tableBy categoryOf checks ∧
      tables.byCell.Tabulates protocolOf (tableBy categoryOf) checks := by
  obtain ⟨hoverall, hprotocol, hcategory, hcell⟩ := foldl_add_eq checks {}
  refine ⟨?_, hprotocol, hcategory, ?_⟩
  · rw [hoverall, foldl_increment_eq]
    exact zero_add _
  · rw [hcell]
    have hvalue : ∀ l, tableBy categoryOf l = l.foldl (fun d c =>
        d.update (categoryOf c) zeroCounts (increment · c.outcome)) (tableBy categoryOf []) :=
      fun _ => rfl
    exact Dict.tabulates_foldl hvalue checks

/-! ## Sorted items -/

section

variable {ν ω : Type}

theorem perm_sortedItems (d : Dict String ν) : (sortedItems d).Perm d.entries :=
  List.perm_insertionSort _ _

theorem nodup_sortedItems (d : Dict String ν) : ((sortedItems d).map (·.1)).Nodup :=
  ((perm_sortedItems d).map (·.1)).nodup_iff.mpr d.nodup

theorem lookup_sortedItems (d : Dict String ν) (k : String) :
    (sortedItems d).lookup k = d.get? k := by
  apply Option.ext
  intro v
  have hsorted := Dict.mem_entries_iff (d := ⟨sortedItems d, nodup_sortedItems d⟩) (k := k) (v := v)
  exact hsorted.symm.trans ((perm_sortedItems d).mem_iff.trans Dict.mem_entries_iff)

theorem lookup_map_snd (g : ν → ω) (l : List (String × ν)) (k : String) :
    (l.map fun e => (e.1, g e.2)).lookup k = (l.lookup k).map g := by
  induction l with
  | nil => rfl
  | cons e rest ih =>
    rw [List.map_cons, List.lookup_cons, List.lookup_cons, ih]
    cases k == e.1 <;> rfl

/-- Tables that give the same answers, up to what is made of an answer, have the same sorted
items. -/
theorem sortedItems_map_congr {d d' : Dict String ν} {g : ν → ω}
    (h : ∀ k, (d.get? k).map g = (d'.get? k).map g) :
    (sortedItems d).map (fun e => (e.1, g e.2)) =
      (sortedItems d').map fun e => (e.1, g e.2) := by
  have hmap : ∀ d : Dict String ν, (sortedItems d).map (fun e => (e.1, g e.2)) =
      ((d.entries.map fun e => (e.1, g e.2)).insertionSort fun a b => a.1 ≤ b.1) := by
    intro d
    rw [sortedItems, List.map_insertionSort (r := fun a b : String × ν => a.1 ≤ b.1)
      (s := fun a b : String × ω => a.1 ≤ b.1)]
    exact fun _ _ _ _ => Iff.rfl
  have hkeys : ∀ d : Dict String ν,
      ((d.entries.map fun e => (e.1, g e.2)).map (·.1)).Nodup := by
    intro d
    rw [List.map_map]
    exact d.nodup
  have hmem : ∀ (d : Dict String ν) (k : String) (w : ω),
      (k, w) ∈ d.entries.map (fun e => (e.1, g e.2)) ↔ (d.get? k).map g = some w := by
    intro d k w
    rw [List.mem_map, Option.map_eq_some_iff]
    constructor
    · rintro ⟨e, he, hpair⟩
      obtain ⟨rfl, rfl⟩ := Prod.mk.inj hpair
      exact ⟨e.2, Dict.mem_entries_iff.mp he, rfl⟩
    · rintro ⟨v, hv, rfl⟩
      exact ⟨(k, v), Dict.mem_entries_iff.mpr hv, rfl⟩
  have hperm : (d.entries.map fun e => (e.1, g e.2)).Perm
      (d'.entries.map fun e => (e.1, g e.2)) := by
    rw [List.perm_ext_iff_of_nodup (hkeys d).of_map (hkeys d').of_map]
    rintro ⟨k, w⟩
    rw [hmem, hmem, h k]
  rw [hmap d, hmap d']
  apply SortKey.insertionSort_key_eq_of_perm (fun e : String × ω => e.1) hperm
  intro a ha b hb hab
  exact List.inj_on_of_nodup_map (hkeys d) ha hb hab

theorem sortedItems_congr {d d' : Dict String ν} (h : ∀ k, d.get? k = d'.get? k) :
    sortedItems d = sortedItems d' := by
  have hmap := sortedItems_map_congr (g := id) fun k => congrArg (Option.map id) (h k)
  simpa using hmap

end

/-! ## The matrix -/

namespace CoverageMatrix

variable (matrix : CoverageMatrix)

/-- The cells of a category, over the protocols that have one. -/
def column (category : String) : List CoverageCounts :=
  matrix.byProtocolAndCategory.filterMap fun row => row.2.lookup category

/-- Every set of counts in the matrix. -/
def aggregates : List CoverageCounts :=
  matrix.overall :: matrix.byProtocol.map (·.2) ++ matrix.byCategory.map (·.2) ++
    matrix.byProtocolAndCategory.flatMap fun row => row.2.map (·.2)

end CoverageMatrix

variable {checks : List PolicyCheck}

theorem lookup_rows (protocol : String) :
    (aggregateCoverage checks).byProtocolAndCategory.lookup protocol =
      if checks.filter (protocolOf · = protocol) = [] then none
      else some (sortedItems (tableBy categoryOf (checks.filter (protocolOf · = protocol)))) := by
  obtain ⟨-, -, -, hcell⟩ := tables_eq checks
  have hrow : (aggregateCoverage checks).byProtocolAndCategory.lookup protocol =
      ((checks.foldl CoverageTables.add {}).byCell.get? protocol).map sortedItems := by
    rw [← lookup_sortedItems, ← lookup_map_snd]
    rfl
  rw [hrow, hcell protocol]
  split <;> rfl

/-- A row is the sum of its cells. -/
theorem byProtocol_eq_sum (protocol : String) :
    (aggregateCoverage checks).byProtocol.lookup protocol =
      ((aggregateCoverage checks).byProtocolAndCategory.lookup protocol).map fun cells =>
        (cells.map (·.2)).sum := by
  obtain ⟨-, hprotocol, -, -⟩ := tables_eq checks
  have hrow : (aggregateCoverage checks).byProtocol.lookup protocol =
      (tableBy protocolOf checks).get? protocol := by
    rw [← lookup_sortedItems, ← hprotocol]
    rfl
  rw [hrow, lookup_rows, tableBy_tabulates protocolOf checks protocol]
  split
  · rfl
  · have hcells := (tableBy_tabulates categoryOf
      (checks.filter (protocolOf · = protocol))).sum_values (f := countsOf)
    have hsorted := ((perm_sortedItems (tableBy categoryOf
      (checks.filter (protocolOf · = protocol)))).map (·.2)).sum_eq
    rw [Option.map_some, hsorted, hcells]
    rfl

/-- The column of a category lists the protocols in some order, and each gives its cell. -/
theorem column_perm (category : String) :
    ((aggregateCoverage checks).column category).Perm
      ((checks.foldl CoverageTables.add {}).byCell.entries.filterMap fun row =>
        row.2.get? category) := by
  have hrow : (fun row : String × Dict String CoverageCounts =>
      (sortedItems row.2).lookup category) = fun row => row.2.get? category := by
    funext row
    exact lookup_sortedItems row.2 category
  have hcolumn : (aggregateCoverage checks).column category =
      (sortedItems (checks.foldl CoverageTables.add {}).byCell).filterMap fun row =>
        (sortedItems row.2).lookup category := by
    show ((sortedItems _).map _).filterMap _ = _
    rw [List.filterMap_map]
    rfl
  rw [hcolumn, hrow]
  exact (perm_sortedItems _).filterMap _

theorem sum_filterMap {κ M : Type*} [AddCommMonoid M] {f : κ → Option M} {g : κ → M}
    {keys : List κ} (h : ∀ k ∈ keys, (f k).getD 0 = g k) :
    (keys.filterMap f).sum = (keys.map g).sum := by
  induction keys with
  | nil => rfl
  | cons k rest ih =>
    have hrest := ih fun k' hk' => h k' (List.mem_cons_of_mem k hk')
    have hk := h k List.mem_cons_self
    rw [List.map_cons, List.sum_cons, ← hk, ← hrest]
    cases hf : f k with
    | none => simp [hf]
    | some m => simp [hf]

/-- The cells of a category, by the protocols of the table. -/
theorem cells_eq (category : String) :
    let byCell := (checks.foldl CoverageTables.add {}).byCell
    (byCell.entries.filterMap fun row => row.2.get? category) =
      byCell.keys.filterMap fun protocol =>
        (tableBy categoryOf (checks.filter (protocolOf · = protocol))).get? category := by
  obtain ⟨-, -, -, hcell⟩ := tables_eq checks
  intro byCell
  rw [Tabulates.entries_eq hcell, List.filterMap_map]
  rfl

theorem sum_cells (category : String) :
    ((checks.foldl CoverageTables.add {}).byCell.entries.filterMap fun row =>
      row.2.get? category).sum = tally (checks.filter (categoryOf · = category)) := by
  obtain ⟨-, -, -, hcell⟩ := tables_eq checks
  have hcellOf : ∀ protocol ∈ (checks.foldl CoverageTables.add {}).byCell.keys,
      ((tableBy categoryOf (checks.filter (protocolOf · = protocol))).get? category).getD 0 =
        tally ((checks.filter (categoryOf · = category)).filter (protocolOf · = protocol)) := by
    intro protocol _
    rw [tableBy_tabulates categoryOf _ category, List.filter_comm]
    split
    · rename_i hnil
      rw [hnil]
      rfl
    · rfl
  rw [cells_eq, sum_filterMap hcellOf]
  apply Py.sum_map_filter_key countsOf (Dict.nodup_keys _)
  intro c hc
  exact (Tabulates.mem_keys_iff hcell).mpr ⟨c, (List.mem_filter.mp hc).1, rfl⟩

theorem cells_eq_nil_iff (category : String) :
    ((checks.foldl CoverageTables.add {}).byCell.entries.filterMap fun row =>
      row.2.get? category) = [] ↔ checks.filter (categoryOf · = category) = [] := by
  obtain ⟨-, -, -, hcell⟩ := tables_eq checks
  rw [cells_eq, List.filterMap_eq_nil_iff]
  constructor
  · intro h
    rw [List.filter_eq_nil_iff]
    intro c hc hcategory
    have hnone := h (protocolOf c) ((Tabulates.mem_keys_iff hcell).mpr ⟨c, hc, rfl⟩)
    rw [tableBy_tabulates categoryOf _ category] at hnone
    have hmem : c ∈ (checks.filter (protocolOf · = protocolOf c)).filter
        (categoryOf · = category) := by
      simp only [List.mem_filter, hc, hcategory, decide_true, and_self]
    rw [if_neg (List.ne_nil_of_mem hmem)] at hnone
    exact absurd hnone (by simp)
  · intro h protocol _
    rw [tableBy_tabulates categoryOf _ category, List.filter_comm, h]
    rfl

/-- A column is the sum of its cells. -/
theorem byCategory_eq_sum (category : String) :
    (aggregateCoverage checks).byCategory.lookup category =
      if (aggregateCoverage checks).column category = [] then none
      else some ((aggregateCoverage checks).column category).sum := by
  obtain ⟨-, -, hcategory, -⟩ := tables_eq checks
  have hlookup : (aggregateCoverage checks).byCategory.lookup category =
      (tableBy categoryOf checks).get? category := by
    rw [← lookup_sortedItems, ← hcategory]
    rfl
  have hperm := @column_perm checks category
  have hnil : ((aggregateCoverage checks).column category = []) =
      (checks.filter (categoryOf · = category) = []) := by
    rw [← cells_eq_nil_iff, eq_nil_of_perm hperm.symm]
  rw [hlookup, tableBy_tabulates categoryOf checks category, hperm.sum_eq, sum_cells]
  simp only [hnil]

theorem aggregateCoverage_perm {other : List PolicyCheck} (h : checks.Perm other) :
    aggregateCoverage other = aggregateCoverage checks := by
  obtain ⟨hoverall, hprotocol, hcategory, hcell⟩ := tables_eq checks
  obtain ⟨hoverall', hprotocol', hcategory', hcell'⟩ := tables_eq other
  have hrows : (sortedItems (other.foldl CoverageTables.add {}).byCell).map
      (fun row => (row.1, sortedItems row.2)) =
        (sortedItems (checks.foldl CoverageTables.add {}).byCell).map
          fun row => (row.1, sortedItems row.2) := by
    apply sortedItems_map_congr
    intro protocol
    have hfilter := h.filter (protocolOf · = protocol)
    rw [hcell protocol, hcell' protocol]
    simp only [eq_nil_of_perm hfilter]
    split
    · rfl
    · exact congrArg some (sortedItems_congr (get?_tableBy_perm hfilter))
  unfold aggregateCoverage
  simp only [hoverall, hoverall', hprotocol, hprotocol', hcategory, hcategory', hrows,
    tally_perm h, sortedItems_congr (get?_tableBy_perm h)]

/-! ## Counting

An entry of a table is read against the checks it should stand for. It is there exactly if there
are any, and then counts each of them under its outcome. A matrix whose tables were left empty
still has margins that agree; it is this reading of the entries that such a matrix fails. -/

/-- An entry stands for a list of checks: none for no check, and otherwise one that counts the
checks of each outcome. -/
def StandsFor (entry : Option CoverageCounts) (checks : List PolicyCheck) : Prop :=
  (entry = none ↔ checks = []) ∧
    ∀ counts ∈ entry, ∀ outcome, counts.count outcome = checks.countP (·.outcome = outcome)

/-- An entry that is looked up in the table of a list stands for the checks of its key. -/
theorem standsFor_tableBy (key : PolicyCheck → String) (k : String) :
    StandsFor ((tableBy key checks).get? k) (checks.filter (key · = k)) := by
  rw [tableBy_tabulates key checks k]
  split
  · rename_i hnil
    exact ⟨iff_of_true rfl hnil, by simp⟩
  · rename_i hsome
    refine ⟨iff_of_false (by simp) hsome, fun counts hcounts outcome => ?_⟩
    obtain rfl := Option.some.inj hcounts
    exact count_tally _ outcome

theorem standsFor_row (protocol : String) :
    StandsFor ((aggregateCoverage checks).byProtocol.lookup protocol)
      (checks.filter (protocolOf · = protocol)) := by
  obtain ⟨-, hprotocol, -, -⟩ := tables_eq checks
  have hrow : (aggregateCoverage checks).byProtocol.lookup protocol =
      (tableBy protocolOf checks).get? protocol := by
    rw [← lookup_sortedItems, ← hprotocol]
    rfl
  rw [hrow]
  exact standsFor_tableBy protocolOf protocol

theorem standsFor_column (category : String) :
    StandsFor ((aggregateCoverage checks).byCategory.lookup category)
      (checks.filter (categoryOf · = category)) := by
  obtain ⟨-, -, hcategory, -⟩ := tables_eq checks
  have hcolumn : (aggregateCoverage checks).byCategory.lookup category =
      (tableBy categoryOf checks).get? category := by
    rw [← lookup_sortedItems, ← hcategory]
    rfl
  rw [hcolumn]
  exact standsFor_tableBy categoryOf category

/-- The cell of a protocol and a category, where the matrix has one. -/
def CoverageMatrix.cell (matrix : CoverageMatrix) (protocol category : String) :
    Option CoverageCounts :=
  (matrix.byProtocolAndCategory.lookup protocol).bind (·.lookup category)

theorem standsFor_cell (protocol category : String) :
    StandsFor ((aggregateCoverage checks).cell protocol category)
      (checks.filter fun c => protocolOf c = protocol ∧ categoryOf c = category) := by
  have hfilter : checks.filter (fun c => protocolOf c = protocol ∧ categoryOf c = category) =
      (checks.filter (protocolOf · = protocol)).filter (categoryOf · = category) := by
    rw [List.filter_filter]
    exact List.filter_congr fun c _ => by simp [Bool.and_comm]
  rw [CoverageMatrix.cell, lookup_rows, hfilter]
  split
  · rename_i hnil
    rw [hnil]
    exact ⟨iff_of_true rfl rfl, by simp⟩
  · rw [Option.bind_some, lookup_sortedItems]
    exact standsFor_tableBy categoryOf category

/-- **The margins agree, and the order of the checks does not matter.** Every cell, row and column
stands for the checks of its protocol and category, so that no view of the counts can be left
behind by the others; a row is the sum of its cells and a column too. -/
theorem aggregateCoverage_margins (checks : List PolicyCheck) :
    (∀ outcome, (aggregateCoverage checks).overall.count outcome =
      checks.countP (·.outcome = outcome)) ∧
    (∀ protocol category, StandsFor ((aggregateCoverage checks).cell protocol category)
      (checks.filter fun c => protocolOf c = protocol ∧ categoryOf c = category)) ∧
    (∀ protocol, StandsFor ((aggregateCoverage checks).byProtocol.lookup protocol)
      (checks.filter (protocolOf · = protocol))) ∧
    (∀ category, StandsFor ((aggregateCoverage checks).byCategory.lookup category)
      (checks.filter (categoryOf · = category))) ∧
    (∀ protocol, (aggregateCoverage checks).byProtocol.lookup protocol =
      ((aggregateCoverage checks).byProtocolAndCategory.lookup protocol).map fun cells =>
        (cells.map (·.2)).sum) ∧
    (∀ category, (aggregateCoverage checks).byCategory.lookup category =
      if (aggregateCoverage checks).column category = [] then none
      else some ((aggregateCoverage checks).column category).sum) ∧
    (∀ counts ∈ (aggregateCoverage checks).aggregates,
      counts.applicableCount = counts.passedCount + counts.failedCount + counts.unknownCount +
        counts.notObservableCount) ∧
    ∀ other, checks.Perm other → aggregateCoverage other = aggregateCoverage checks := by
  refine ⟨?_, standsFor_cell, standsFor_row, standsFor_column, byProtocol_eq_sum,
    byCategory_eq_sum, fun counts _ => counts.reconcile.symm, ?_⟩
  · intro outcome
    have hoverall : (aggregateCoverage checks).overall = tally checks := (tables_eq checks).1
    rw [hoverall, count_tally]
  · exact fun _ hperm => aggregateCoverage_perm hperm

end Findings
end SecureMail
