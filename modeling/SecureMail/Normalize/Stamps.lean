import SecureMail.Normalize.Sessions
import SecureMail.Lib.SortKey

/-!
# Stamps

Every event is stamped with a counter that all connections share, and a merge sorts by time and then
by stamp. The matching before the sort looks at times alone, and a list that is in the order of its
stamps is sorted by time alone, ties staying as they are. So two lists that differ in their stamps
only, each in the order of its own, make the same events.

It is a small fact with a large use: the stamps of a connection depend on the rows of all
connections, and without it no session could be a function of its own rows. What is asked of a list
is that its stamps go up, which both passes see to by adding at the end, and no relation between the
stamps of two runs is needed.
-/

namespace SecureMail
namespace Normalize
namespace Sessions

/-! ## Without the stamps -/

/-- The event without its place in the pass. -/
def Stamped.unordered (x : Stamped) : Stamped := { x with order := 0 }

/-- The events without their places in the pass. -/
def unordered (l : List Stamped) : List Stamped := l.map Stamped.unordered

/-- The events stand in the order of their stamps. Both passes add events at the end, with a counter
that only goes up. -/
def InOrder (l : List Stamped) : Prop := (l.map (·.order)).Pairwise (· < ·)

theorem bestMatch_unordered (zeek : List Stamped) (extra : Stamped) :
    bestMatch (unordered zeek) extra.unordered = bestMatch zeek extra := by
  unfold bestMatch unordered
  rw [List.zipIdx_map, List.foldl_map]
  rfl

theorem unordered_modify_absorb (extra : Stamped) :
    ∀ (l : List Stamped) (i : Nat), unordered (l.modify i (·.absorb extra)) =
      (unordered l).modify i (·.absorb extra.unordered)
  | [], i => by simp [unordered]
  | a :: rest, 0 => rfl
  | a :: rest, i + 1 => by
    have hrest := unordered_modify_absorb extra rest i
    unfold unordered at hrest ⊢
    rw [List.modify_succ_cons, List.map_cons, List.map_cons, List.modify_succ_cons, hrest]

theorem mergeStep_unordered (acc : List Stamped × List Stamped) (extra : Stamped) :
    mergeStep (unordered acc.1, unordered acc.2) extra.unordered =
      (unordered (mergeStep acc extra).1, unordered (mergeStep acc extra).2) := by
  unfold mergeStep
  rw [bestMatch_unordered]
  by_cases hnone : extra.event.kind = .request ∧ extra.event.command = none
  · rw [if_pos hnone]
    exact if_pos hnone
  · rw [if_neg hnone]
    refine (if_neg hnone).trans ?_
    cases bestMatch acc.1 extra with
    | none => simp [unordered]
    | some i => simp [unordered_modify_absorb]

theorem foldl_mergeStep_unordered :
    ∀ (tshark : List Stamped) (acc : List Stamped × List Stamped),
      (unordered tshark).foldl mergeStep (unordered acc.1, unordered acc.2) =
        (unordered (tshark.foldl mergeStep acc).1, unordered (tshark.foldl mergeStep acc).2)
  | [], _ => rfl
  | extra :: rest, acc => by
    show (unordered rest).foldl mergeStep
      (mergeStep (unordered acc.1, unordered acc.2) extra.unordered) = _
    rw [mergeStep_unordered, foldl_mergeStep_unordered rest]
    rfl

/-! ## In the order of the stamps -/

/-- Folding a TShark event into a Zeek event keeps the stamp of the Zeek event. -/
theorem orders_modify_absorb (extra : Stamped) :
    ∀ (l : List Stamped) (i : Nat),
      (l.modify i (·.absorb extra)).map (·.order) = l.map (·.order)
  | [], i => by simp
  | a :: rest, 0 => rfl
  | a :: rest, i + 1 => by
    rw [List.modify_succ_cons, List.map_cons, List.map_cons, orders_modify_absorb extra rest i]

theorem orders_mergeStep (acc : List Stamped × List Stamped) (extra : Stamped) :
    (mergeStep acc extra).1.map (·.order) = acc.1.map (·.order) ∧
      (mergeStep acc extra).2.Sublist (acc.2 ++ [extra]) := by
  unfold mergeStep
  split
  · exact ⟨rfl, List.sublist_append_left _ _⟩
  · split
    · exact ⟨rfl, List.Sublist.refl _⟩
    · exact ⟨orders_modify_absorb extra _ _, List.sublist_append_left _ _⟩

theorem orders_foldl_mergeStep :
    ∀ (tshark : List Stamped) (acc : List Stamped × List Stamped),
      (tshark.foldl mergeStep acc).1.map (·.order) = acc.1.map (·.order) ∧
        (tshark.foldl mergeStep acc).2.Sublist (acc.2 ++ tshark)
  | [], acc => ⟨rfl, by simp⟩
  | extra :: rest, acc => by
    obtain ⟨hzeek, hkept⟩ := orders_mergeStep acc extra
    obtain ⟨hzeeks, hkepts⟩ := orders_foldl_mergeStep rest (mergeStep acc extra)
    refine ⟨hzeeks.trans hzeek, hkepts.trans ?_⟩
    rw [List.append_cons acc.2 extra rest]
    exact hkept.append_right rest

/-- Later by time alone. -/
def Stamped.notLater (a b : Stamped) : Prop := b.ts.eq a.ts = true ∨ b.ts.lt a.ts = false

instance : DecidableRel Stamped.notLater := fun a b => by
  unfold Stamped.notLater
  infer_instance

/-- Of two events in the order of their stamps, the times decide. -/
theorem before_iff_notLater {a b : Stamped} (h : a.order < b.order) :
    b.before a = false ↔ a.notLater b := by
  unfold Stamped.before Stamped.notLater
  cases b.ts.eq a.ts with
  | true => simp [Nat.le_of_lt h]
  | false => simp

/-- The two lists after the merge, before the sort. -/
def merged (zeek tshark : List Stamped) : List Stamped :=
  (tshark.foldl mergeStep (zeek, [])).1 ++ (tshark.foldl mergeStep (zeek, [])).2

theorem inOrder_merged {zeek tshark : List Stamped} (h : InOrder (zeek ++ tshark)) :
    InOrder (merged zeek tshark) := by
  obtain ⟨hzeek, hkept⟩ := orders_foldl_mergeStep tshark (zeek, [])
  unfold InOrder merged at *
  rw [List.map_append, hzeek]
  rw [List.map_append] at h
  exact h.sublist ((List.Sublist.refl _).append (hkept.map _))

theorem unordered_mergeEvents {zeek tshark : List Stamped} (h : InOrder (zeek ++ tshark)) :
    unordered (mergeEvents zeek tshark) =
      (merged (unordered zeek) (unordered tshark)).insertionSort Stamped.notLater := by
  have hpairs : (merged zeek tshark).Pairwise fun a b => b.before a = false ↔ a.notLater b :=
    (List.pairwise_map.mp (inOrder_merged h)).imp before_iff_notLater
  have hsort : mergeEvents zeek tshark = (merged zeek tshark).insertionSort Stamped.notLater :=
    SortKey.insertionSort_congr hpairs
  have hmerged : unordered (merged zeek tshark) = merged (unordered zeek) (unordered tshark) := by
    have hfold := foldl_mergeStep_unordered tshark (zeek, [])
    unfold merged
    rw [show (unordered zeek, ([] : List Stamped)) = (unordered zeek, unordered []) from rfl, hfold]
    exact List.map_append
  rw [hsort, ← hmerged]
  exact List.map_insertionSort _ _ _ _ fun _ _ _ _ => Iff.rfl

/-- The bound looks at the events alone. -/
theorem boundEvents_unordered {last : Option ProtocolEvent} {bounded : List ProtocolEvent} :
    ∀ {l : List Stamped}, boundEvents last bounded (unordered l) = boundEvents last bounded l := by
  intro l
  induction l generalizing last bounded with
  | nil => rfl
  | cons item rest ih =>
    show boundEvents last bounded (item.unordered :: unordered rest) = _
    unfold boundEvents
    rw [ih, ih]
    rfl

end Sessions
end Normalize
end SecureMail
