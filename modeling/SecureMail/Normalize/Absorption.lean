import SecureMail.Normalize.Merge
import SecureMail.Lib.Dealing
import SecureMail.Lib.SortKey

/-!
# What the merge does with each event

The merge deals TShark events to Zeek events. Its log says which: at a place stands the TShark event
that was folded into the Zeek event there, and since an event that has absorbed one is no longer
free, no place occurs twice. A TShark event that was not dealt is kept for the end or, as a request
without a command, dropped. So every Zeek event comes out once with at most a frame number and a tag
from outside, and every TShark event has exactly one fate.

The sort at the end changes no event. On finite times it compares times and then stamps, which are
all different, so it leaves one order.
-/

namespace SecureMail
namespace Normalize
namespace Sessions

/-- The Zeek events with what was folded into them. -/
def absorbed (log : List (Nat × Stamped)) (zeek : List Stamped) : List Stamped :=
  Dealing.deal (fun extra best => best.absorb extra) log zeek

/-- A log of the merge: at each place the TShark event it absorbed, the ones kept for the end, and
the ones dropped. The loop keeps no such log: it writes into the Zeek event and forgets. The log is
what the conservation law is about, and so it is carried through the loop beside the state. -/
structure MergeLog (zeek tshark : List Stamped) (log : List (Nat × Stamped))
    (kept dropped : List Stamped) : Prop where
  places : (log.map Prod.fst).Nodup
  fates : tshark.Perm (log.map Prod.snd ++ kept ++ dropped)
  mates : ∀ gift ∈ log, ∃ z, zeek[gift.1]? = some z ∧ Eligible gift.2 z ∧ Within z.ts gift.2.ts
  nameless : ∀ x ∈ dropped, x.event.kind = .request ∧ x.event.command = none

variable {zeek tshark kept dropped : List Stamped} {log : List (Nat × Stamped)} {extra : Stamped}

/-! ## One TShark event -/

theorem MergeLog.drop (h : MergeLog zeek tshark log kept dropped)
    (hnameless : extra.event.kind = .request ∧ extra.event.command = none) :
    MergeLog zeek (extra :: tshark) log kept (extra :: dropped) where
  places := h.places
  fates := (h.fates.cons extra).trans List.perm_middle.symm
  mates := h.mates
  nameless := by
    rw [List.forall_mem_cons]
    exact ⟨hnameless, h.nameless⟩

theorem MergeLog.keep (h : MergeLog zeek tshark log kept dropped) :
    MergeLog zeek (extra :: tshark) log (extra :: kept) dropped where
  places := h.places
  fates := by
    have hfates := h.fates.cons extra
    rw [List.append_assoc] at hfates ⊢
    exact hfates.trans List.perm_middle.symm
  mates := h.mates
  nameless := h.nameless

/-- The place of a match was free, so nothing later in the log is dealt to it. -/
theorem MergeLog.absorb {i : Nat} {z : Stamped} (hz : zeek[i]? = some z)
    (heligible : Eligible extra z) (hwithin : Within z.ts extra.ts)
    (h : MergeLog (zeek.modify i (·.absorb extra)) tshark log kept dropped) :
    MergeLog zeek (extra :: tshark) ((i, extra) :: log) kept dropped := by
  have hfree : ∀ gift ∈ log, gift.1 ≠ i := by
    rintro gift hgift rfl
    obtain ⟨z', hz', ⟨hmatched, -, -⟩, -⟩ := h.mates gift hgift
    rw [List.getElem?_modify_eq, hz] at hz'
    obtain rfl := Option.some.inj hz'
    exact absurd hmatched (by simp [Stamped.absorb])
  refine ⟨?_, h.fates.cons extra, ?_, h.nameless⟩
  · rw [List.map_cons, List.nodup_cons]
    refine ⟨fun hmem => ?_, h.places⟩
    obtain ⟨gift, hgift, heq⟩ := List.mem_map.mp hmem
    exact hfree gift hgift heq
  · intro gift hgift
    rcases List.mem_cons.mp hgift with rfl | hgift
    · exact ⟨z, hz, heligible, hwithin⟩
    · obtain ⟨z', hz', hmate⟩ := h.mates gift hgift
      rw [List.getElem?_modify_ne _ _ (Ne.symm (hfree gift hgift))] at hz'
      exact ⟨z', hz', hmate⟩

/-! ## The whole loop -/

/-- **The loop has a log**, from any state it is started in. It is proved for any state since the
loop goes on from states in which much is absorbed already. -/
theorem exists_mergeLog (tshark zeek before : List Stamped) :
    ∃ log kept dropped, tshark.foldl mergeStep (zeek, before) = (absorbed log zeek, before ++ kept) ∧
      MergeLog zeek tshark log kept dropped := by
  induction tshark generalizing zeek before with
  | nil =>
    refine ⟨[], [], [], ?_, ⟨List.nodup_nil, List.Perm.refl _, by simp, by simp⟩⟩
    rw [List.append_nil]
    rfl
  | cons extra rest ih =>
    rw [List.foldl_cons, mergeStep]
    by_cases hnameless : extra.event.kind = .request ∧ extra.event.command = none
    · rw [if_pos hnameless]
      obtain ⟨log, kept, dropped, hrun, hlog⟩ := ih zeek before
      exact ⟨log, kept, extra :: dropped, hrun, hlog.drop hnameless⟩
    · rw [if_neg hnameless]
      cases hmatch : bestMatch zeek extra with
      | none =>
        obtain ⟨log, kept, dropped, hrun, hlog⟩ := ih zeek (before ++ [extra])
        refine ⟨log, extra :: kept, dropped, ?_, hlog.keep⟩
        rw [List.append_assoc, List.singleton_append] at hrun
        exact hrun
      | some i =>
        obtain ⟨z, hz, heligible, hwithin⟩ := bestMatch_eq_some hmatch
        obtain ⟨log, kept, dropped, hrun, hlog⟩ := ih (zeek.modify i (·.absorb extra)) before
        exact ⟨(i, extra) :: log, kept, dropped, hrun, hlog.absorb hz heligible hwithin⟩

/-- A Zeek event in the result: itself, or itself with what it absorbed. -/
theorem MergeLog.getElem?_absorbed (h : MergeLog zeek tshark log kept dropped) {i : Nat}
    {z : Stamped} (hz : zeek[i]? = some z) :
    i ∉ log.map Prod.fst ∧ (absorbed log zeek)[i]? = some z ∨
      ∃ x, (i, x) ∈ log ∧ (absorbed log zeek)[i]? = some (z.absorb x) := by
  by_cases hmem : i ∈ log.map Prod.fst
  · right
    obtain ⟨gift, hgift, rfl⟩ := List.mem_map.mp hmem
    refine ⟨gift.2, hgift, ?_⟩
    rw [absorbed, Dealing.getElem?_deal_of_mem h.places hgift, hz]
    rfl
  · left
    refine ⟨hmem, ?_⟩
    rw [absorbed, Dealing.getElem?_deal_of_notMem hmem, hz]

theorem orders_absorbed : (absorbed log zeek).map (·.order) = zeek.map (·.order) :=
  Dealing.map_deal fun _ _ => rfl

theorem times_absorbed (log : List (Nat × Stamped)) (zeek : List Stamped) :
    (absorbed log zeek).map (·.ts) = zeek.map (·.ts) :=
  Dealing.map_deal fun _ _ => rfl

/-! ## The sort -/

/-- The order of finite times, then of stamps. -/
def stampOrdering : Stamped → Stamped → Ordering :=
  compareLex (compareOn fun x => x.ts.units?.getD 0) (compareOn fun x => x.order)

instance : Std.TransCmp stampOrdering :=
  inferInstanceAs (Std.TransCmp (compareLex (compareOn fun x : Stamped => x.ts.units?.getD 0)
    (compareOn fun x => x.order)))

theorem before_eq_of_finite {a b : Stamped} (ha : a.ts.Finite) (hb : b.ts.Finite) :
    a.before b = true ↔ stampOrdering a b = .lt := by
  unfold Stamped.before stampOrdering compareLex compareOn
  dsimp only
  rw [Py.Float.eq_of_finite ha hb, Py.Float.lt_of_finite ha hb, Ordering.then_eq_lt,
    compare_lt_iff_lt, compare_eq_iff_eq, compare_lt_iff_lt]
  generalize a.ts.units?.getD 0 = m
  generalize b.ts.units?.getD 0 = n
  by_cases hunits : m = n
  · simp [hunits]
  · simp [hunits]

/-- The sort key of the source is that order. -/
theorem before_false_iff {a b : Stamped} (ha : a.ts.Finite) (hb : b.ts.Finite) :
    b.before a = false ↔ SortKey.Before stampOrdering a b := by
  have hswap : stampOrdering b a = (stampOrdering a b).swap := Std.OrientedCmp.eq_swap
  rw [← Bool.not_eq_true, before_eq_of_finite hb ha, hswap, SortKey.Before]
  cases stampOrdering a b <;> simp

/-- Finite times and stamps that differ leave one order. -/
theorem pairwise_before_sort {l : List Stamped} (hfinite : ∀ x ∈ l, x.ts.Finite)
    (horders : (l.map (·.order)).Nodup) :
    (l.insertionSort fun a b => b.before a = false).Pairwise fun a b => a.before b = true := by
  have hpairs : l.Pairwise fun a b => b.before a = false ↔ SortKey.Before stampOrdering a b :=
    List.pairwise_of_forall_mem_list fun a ha b hb =>
      before_false_iff (hfinite a ha) (hfinite b hb)
  rw [SortKey.insertionSort_congr hpairs]
  have hsorted : (l.insertionSort (SortKey.Before stampOrdering)).Pairwise
      (SortKey.Before stampOrdering) := SortKey.pairwise_insertionSort l
  have hperm := List.perm_insertionSort (SortKey.Before stampOrdering) l
  have hdistinct : (l.insertionSort (SortKey.Before stampOrdering)).Pairwise
      fun a b => a.order ≠ b.order :=
    List.pairwise_map.mp ((hperm.map _).nodup_iff.mpr horders)
  refine (hsorted.and hdistinct).imp_of_mem ?_
  intro a b ha hb hab
  have ha := hfinite a (hperm.mem_iff.mp ha)
  have hb := hfinite b (hperm.mem_iff.mp hb)
  rw [before_eq_of_finite ha hb]
  obtain ⟨hle, hne⟩ := hab
  cases hcmp : stampOrdering a b with
  | lt => rfl
  | eq =>
    -- Equal keys have equal stamps.
    unfold stampOrdering compareLex at hcmp
    rw [Ordering.then_eq_eq] at hcmp
    exact absurd (compare_eq_iff_eq.mp hcmp.2) hne
  | gt =>
    unfold SortKey.Before at hle
    rw [hcmp] at hle
    exact absurd hle (by simp)

/-! ## The whole merge -/

/-- `z'` is `z` with another frame number and tag at most. These are the two fields a merge may set
in a Zeek event. Everything else about it is as Zeek wrote it. -/
def Recited (z z' : Stamped) : Prop :=
  z' = { z with
    event := { z.event with frameNumber := z'.event.frameNumber, tag := z'.event.tag }
    «matched» := z'.matched }

theorem recited_self (z : Stamped) : Recited z z := rfl

theorem recited_absorb (z x : Stamped) : Recited z (z.absorb x) := rfl

theorem mem_kept_tshark (h : MergeLog zeek tshark log kept dropped) {x : Stamped}
    (hx : x ∈ kept) : x ∈ tshark := by
  apply h.fates.mem_iff.mpr
  exact List.mem_append_left _ (List.mem_append_right _ hx)

/-- What comes out has finite times, as what went in. -/
theorem finite_absorbed_append (h : MergeLog zeek tshark log kept dropped)
    (hfinite : ∀ x ∈ zeek ++ tshark, x.ts.Finite) : ∀ x ∈ absorbed log zeek ++ kept, x.ts.Finite := by
  intro x hx
  rcases List.mem_append.mp hx with hx | hx
  · have hts : x.ts ∈ zeek.map (·.ts) := by
      rw [← times_absorbed log]
      exact List.mem_map_of_mem hx
    obtain ⟨z, hz, heq⟩ := List.mem_map.mp hts
    rw [← heq]
    exact hfinite z (List.mem_append_left _ hz)
  · exact hfinite x (List.mem_append_right _ (mem_kept_tshark h hx))

/-- What comes out has the stamps of what went in, less those of the TShark events that went. -/
theorem orders_absorbed_append (h : MergeLog zeek tshark log kept dropped)
    (horders : ((zeek ++ tshark).map (·.order)).Nodup) :
    ((absorbed log zeek ++ kept).map (·.order)).Nodup := by
  rw [List.map_append, orders_absorbed, ← List.map_append]
  have hall : (zeek ++ tshark).Perm (zeek ++ (log.map Prod.snd ++ kept ++ dropped)) :=
    h.fates.append_left zeek
  have hkept : (zeek ++ kept).Sublist (zeek ++ (log.map Prod.snd ++ kept ++ dropped)) := by
    apply List.Sublist.append_left
    rw [List.append_assoc]
    exact (List.sublist_append_left _ _).trans (List.sublist_append_right _ _)
  exact (hkept.map _).nodup ((hall.map _).nodup_iff.mp horders)

/-- **The merge conserves its evidence.** Every event of either analyzer has one fate: a Zeek event
comes out once, recited, after at most one TShark event has been folded into it; a TShark event has
been folded into one eligible and near Zeek event, is kept, or was a request without a command. -/
theorem merge_conserves (hfresh : ∀ x ∈ zeek ++ tshark, x.matched = false)
    (hfinite : ∀ x ∈ zeek ++ tshark, x.ts.Finite)
    (horders : ((zeek ++ tshark).map (·.order)).Nodup) :
    ∃ (log : List (Nat × Stamped)) (kept dropped : List Stamped),
      MergeLog zeek tshark log kept dropped ∧
      (mergeEvents zeek tshark).Perm (absorbed log zeek ++ kept) ∧
      (absorbed log zeek).length = zeek.length ∧
      (∀ i z, zeek[i]? = some z → ∃ z', (absorbed log zeek)[i]? = some z' ∧ Recited z z' ∧
        (z'.matched = true ↔ ∃ x, (i, x) ∈ log)) ∧
      (mergeEvents zeek tshark).Pairwise fun a b => a.before b = true := by
  obtain ⟨log, kept, dropped, hrun, hlog⟩ := exists_mergeLog tshark zeek []
  have hmerge : mergeEvents zeek tshark =
      (absorbed log zeek ++ kept).insertionSort fun a b => b.before a = false := by
    unfold mergeEvents
    rw [hrun]
    rfl
  refine ⟨log, kept, dropped, hlog, ?_, Dealing.length_deal, ?_, ?_⟩
  · rw [hmerge]
    exact List.perm_insertionSort _ _
  · intro i z hz
    rcases hlog.getElem?_absorbed hz with ⟨hnot, hsame⟩ | ⟨x, hx, habsorb⟩
    · refine ⟨z, hsame, recited_self z, ?_⟩
      rw [hfresh z (List.mem_append_left _ (List.mem_of_getElem? hz))]
      refine ⟨fun h => absurd h (by simp), ?_⟩
      rintro ⟨x, hx⟩
      exact absurd (List.mem_map_of_mem (f := Prod.fst) hx) hnot
    · exact ⟨z.absorb x, habsorb, recited_absorb z x, fun _ => ⟨x, hx⟩, fun _ => rfl⟩
  · rw [hmerge]
    exact pairwise_before_sort (finite_absorbed_append hlog hfinite)
      (orders_absorbed_append hlog horders)

/-- An event of one connection, by when it was seen, its stamp, its kind and its command. -/
def noted (seconds order : Nat) (kind : SessionEventKind) (command : Option String) : Stamped where
  ts := .ofNat seconds
  order := order
  uid := "C1"
  protocol := none
  event := { direction := .orig, kind := kind, command := command }

/-- Of three TShark events one is folded, one kept and one dropped. -/
theorem merge_threeFates :
    let zeek := [noted 10 0 .request (some "EHLO"), noted 11 1 .request (some "QUIT")]
    let tshark := [noted 12 2 .request (some "EHLO"), noted 12 3 .request (some "NOOP"),
      noted 13 4 .request none]
    ∃ (log : List (Nat × Stamped)) (kept dropped : List Stamped),
      MergeLog zeek tshark log kept dropped ∧
      (mergeEvents zeek tshark).Perm (absorbed log zeek ++ kept) ∧
      (absorbed log zeek).length = zeek.length ∧
      (∀ i z, zeek[i]? = some z → ∃ z', (absorbed log zeek)[i]? = some z' ∧ Recited z z' ∧
        (z'.matched = true ↔ ∃ x, (i, x) ∈ log)) ∧
      (mergeEvents zeek tshark).Pairwise fun a b => a.before b = true := by
  apply merge_conserves
  · decide
  · decide +kernel
  · decide

end Sessions
end Normalize
end SecureMail
