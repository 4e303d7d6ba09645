import SecureMail.Normalize.Sessions
import SecureMail.Py.FloatOrder

/-!
# What the merge keeps

`_merge_events` folds each TShark event into the Zeek event it corroborates, or appends it. Two
requests corroborate each other only when they carry the same command, so no command is lost by
folding one into the other: the commands requested in the merged list are those of the two inputs
together (`mem_requests_mergeEvents`). The bound after it drops repeated capabilities and nothing
else until the cap is reached, so below the cap they are the commands of the session.

A command is compared upper-cased. Both readers upper-case what they keep, which is what `Settled`
says, and upper-casing is idempotent, so equal up to case is equal.
-/

namespace SecureMail
namespace Normalize
namespace Sessions

open Py (upper)

/-- The command an event requests, when it is a request. -/
def Stamped.request (x : Stamped) : Option String :=
  if x.event.kind = .request then x.event.command else none

def requests (l : List Stamped) : List String := l.filterMap Stamped.request

theorem mem_requests {l : List Stamped} {c : String} :
    c ∈ requests l ↔ ∃ x ∈ l, x.event.kind = .request ∧ x.event.command = some c := by
  unfold requests
  rw [List.mem_filterMap]
  refine exists_congr fun x => and_congr_right fun _ => ?_
  unfold Stamped.request
  split
  · rename_i hkind
    simp [hkind]
  · rename_i hkind
    simp [hkind]

def commands (l : List Stamped) : List String := l.filterMap (·.event.command)

/-- Every command in the list is one a reader has upper-cased. -/
def Settled (l : List Stamped) : Prop := ∀ c ∈ commands l, c ≠ "" ∧ upper c = c

theorem settled_append {l l' : List Stamped} : Settled (l ++ l') ↔ Settled l ∧ Settled l' := by
  simp only [Settled, commands, List.filterMap_append, List.mem_append]
  constructor
  · intro h
    exact ⟨fun c hc => h c (Or.inl hc), fun c hc => h c (Or.inr hc)⟩
  · rintro ⟨h, h'⟩ c (hc | hc)
    · exact h c hc
    · exact h' c hc

/-- Updating an element where nobody looks changes nothing. -/
theorem filterMap_modify {α β : Type} {g : α → Option β} {f : α → α} (h : ∀ x, g (f x) = g x) :
    ∀ (l : List α) (i : Nat), (l.modify i f).filterMap g = l.filterMap g
  | [], i => by rw [List.modify_nil]
  | a :: rest, 0 => by rw [List.modify_zero_cons, List.filterMap_cons, List.filterMap_cons, h]
  | a :: rest, i + 1 => by
    rw [List.modify_succ_cons, List.filterMap_cons, List.filterMap_cons, filterMap_modify h rest i]

/-! ## One TShark event -/

theorem compatible_request {z t : ProtocolEvent} (h : compatible z t = true)
    (ht : t.kind = .request) : z.kind = .request ∧ z.upperCommand = t.upperCommand := by
  unfold compatible at h
  split at h
  · exact absurd h (by simp)
  · split at h
    · exact absurd h (by simp)
    · dsimp only at h
      split at h
      · rename_i hkinds
        exact ⟨hkinds.1, by simpa using h⟩
      · simp [ht] at h

theorem mergeWindow_le_self : mergeWindowSeconds.le mergeWindowSeconds = true := by
  unfold mergeWindowSeconds
  exact Py.Float.ofNat_le_self 2

/-- Two times within the merge window of each other. -/
def Within (a b : Py.Float) : Prop := (a.sub b).abs.le mergeWindowSeconds = true

/-- A Zeek event that may be matched: free, of the same connection and compatible. -/
def Eligible (extra candidate : Stamped) : Prop :=
  candidate.matched = false ∧ candidate.uid = extra.uid ∧
    compatible candidate.event extra.event = true

instance (extra candidate : Stamped) : Decidable (Eligible extra candidate) := by
  unfold Eligible
  infer_instance

/-- The search for a match, one candidate. -/
def matchStep (extra : Stamped) (best : Option Nat × Py.Float) (candidate : Stamped × Nat) :
    Option Nat × Py.Float :=
  if Eligible extra candidate.1 ∧ (candidate.1.ts.sub extra.ts).abs.le best.2 = true then
    (some candidate.2, (candidate.1.ts.sub extra.ts).abs)
  else best

theorem bestMatch_eq_foldl (zeek : List Stamped) (extra : Stamped) :
    bestMatch zeek extra =
      (zeek.zipIdx.foldl (matchStep extra) (none, mergeWindowSeconds)).1 := by
  unfold bestMatch
  congr 2
  funext best candidate
  unfold matchStep Eligible
  by_cases hown : candidate.1.matched = true ∨ candidate.1.uid ≠ extra.uid
  · rw [if_pos hown, if_neg]
    rintro ⟨⟨hfree, huid, -⟩, -⟩
    rcases hown with hmatched | hother
    · rw [hfree] at hmatched
      exact absurd hmatched (by simp)
    · exact hother huid
  · rw [if_neg hown]
    rw [not_or, not_not] at hown
    by_cases hcompat : compatible candidate.1.event extra.event = true
    · simp [hown.1, hown.2, hcompat]
    · simp [hcompat]

/-- The event a TShark event is folded into is eligible and near. -/
theorem bestMatch_eq_some {zeek : List Stamped} {extra : Stamped} {i : Nat}
    (h : bestMatch zeek extra = some i) :
    ∃ candidate, zeek[i]? = some candidate ∧ Eligible extra candidate ∧
      Within candidate.ts extra.ts := by
  rw [bestMatch_eq_foldl] at h
  -- The search only ever keeps an index whose candidate passed every test, and the bound only falls.
  have hsearch := List.foldlRecOn (motive := fun best : Option Nat × Py.Float =>
      best.2.le mergeWindowSeconds = true ∧ ∀ i, best.1 = some i →
        ∃ candidate, zeek[i]? = some candidate ∧ Eligible extra candidate ∧
          Within candidate.ts extra.ts)
    zeek.zipIdx (matchStep extra) (b := (none, mergeWindowSeconds))
    ⟨by dsimp only; exact mergeWindow_le_self, by simp⟩ ?_
  · exact hsearch.2 i h
  · intro best ih entry hmem
    obtain ⟨candidate, j⟩ := entry
    unfold matchStep
    split
    · rename_i hpass
      have hwindow := Py.Float.le_trans hpass.2 ih.1
      refine ⟨hwindow, fun i hi => ?_⟩
      obtain rfl : j = i := Option.some.inj hi
      exact ⟨candidate, List.mem_zipIdx_iff_getElem?.mp hmem, hpass.1, hwindow⟩
    · exact ih

theorem absorb_command (extra best : Stamped) :
    (best.absorb extra).event.command = best.event.command := rfl

theorem absorb_request (extra best : Stamped) : (best.absorb extra).request = best.request := rfl

theorem commands_mergeStep (acc : List Stamped × List Stamped) (extra : Stamped) :
    commands (mergeStep acc extra).1 = commands acc.1 := by
  unfold mergeStep
  split
  · rfl
  · split
    · rfl
    · exact filterMap_modify (absorb_command extra) _ _

/-- A TShark request enters the merged requests, by itself or as the one it corroborates. -/
theorem mem_requests_mergeStep {acc : List Stamped × List Stamped} {extra : Stamped} {c : String}
    (hzeek : Settled acc.1) (hextra : Settled [extra]) :
    c ∈ requests ((mergeStep acc extra).1 ++ (mergeStep acc extra).2) ↔
      c ∈ requests (acc.1 ++ acc.2) ∨ extra.request = some c := by
  unfold mergeStep
  split
  · rename_i hnone
    simp [Stamped.request, hnone.1, hnone.2]
  · split
    · simp only [requests, List.filterMap_append, List.mem_append, List.mem_filterMap,
        List.mem_singleton, exists_eq_left, or_assoc]
    · rename_i i hi
      have hfold : requests (acc.1.modify i (·.absorb extra)) = requests acc.1 :=
        filterMap_modify (absorb_request extra) _ _
      have happend : ∀ l l' : List Stamped, requests (l ++ l') = requests l ++ requests l' :=
        fun l l' => List.filterMap_append
      rw [happend, happend, hfold]
      refine ⟨Or.inl, fun h => h.elim id fun hc => List.mem_append_left _ ?_⟩
      -- The request is folded into one that carries its command already.
      obtain ⟨candidate, hcandidate, ⟨-, -, hcompat⟩, -⟩ := bestMatch_eq_some hi
      have hkind : extra.event.kind = .request := by
        by_contra hne
        simp [Stamped.request, hne] at hc
      have hcommand : extra.event.command = some c := by
        simpa [Stamped.request, hkind] using hc
      obtain ⟨hzkind, hupper⟩ := compatible_request hcompat hkind
      have hc : c ≠ "" ∧ upper c = c :=
        hextra c (List.mem_filterMap.mpr ⟨extra, List.mem_singleton_self _, hcommand⟩)
      have hmem : candidate ∈ acc.1 := List.mem_of_getElem? hcandidate
      rw [ProtocolEvent.upperCommand, ProtocolEvent.upperCommand, hcommand, Option.getD_some,
        hc.2] at hupper
      refine List.mem_filterMap.mpr ⟨candidate, hmem, ?_⟩
      rw [Stamped.request, if_pos hzkind]
      cases hz : candidate.event.command with
      | none =>
        rw [hz] at hupper
        exact absurd hupper.symm hc.1
      | some d =>
        have hd : d ≠ "" ∧ upper d = d := hzeek d (List.mem_filterMap.mpr ⟨candidate, hmem, hz⟩)
        rw [hz, Option.getD_some, hd.2] at hupper
        rw [hupper]

/-! ## The whole merge -/

theorem mem_requests_foldl_mergeStep {c : String} :
    ∀ {tshark : List Stamped} {acc : List Stamped × List Stamped}, Settled acc.1 → Settled tshark →
      (c ∈ requests ((tshark.foldl mergeStep acc).1 ++ (tshark.foldl mergeStep acc).2) ↔
        c ∈ requests (acc.1 ++ acc.2) ∨ c ∈ requests tshark)
  | [], acc, _, _ => by simp [requests]
  | extra :: rest, acc, hzeek, htshark => by
    obtain ⟨hextra, hrest⟩ := settled_append.mp (show Settled ([extra] ++ rest) from htshark)
    have hstep : Settled (mergeStep acc extra).1 := by
      unfold Settled
      rw [commands_mergeStep]
      exact hzeek
    rw [List.foldl_cons, mem_requests_foldl_mergeStep hstep hrest,
      mem_requests_mergeStep hzeek hextra, or_assoc]
    have hcons : c ∈ requests (extra :: rest) ↔ extra.request = some c ∨ c ∈ requests rest := by
      simp [requests, List.mem_filterMap]
    rw [hcons]

/-- **The merge loses no command**: what is requested in the merged list is what one of the two
analyzers saw requested. -/
theorem mem_requests_mergeEvents {zeek tshark : List Stamped} {c : String} (hzeek : Settled zeek)
    (htshark : Settled tshark) :
    c ∈ requests (mergeEvents zeek tshark) ↔ c ∈ requests zeek ∨ c ∈ requests tshark := by
  have hmerge : c ∈ requests ((tshark.foldl mergeStep (zeek, [])).1 ++
      (tshark.foldl mergeStep (zeek, [])).2) ↔ c ∈ requests (zeek ++ []) ∨ c ∈ requests tshark :=
    mem_requests_foldl_mergeStep hzeek htshark
  rw [List.append_nil] at hmerge
  rw [← hmerge]
  unfold requests mergeEvents
  rw [List.mem_filterMap, List.mem_filterMap]
  simp only [(List.perm_insertionSort _ _).mem_iff]

/-! ## The bound -/

theorem isDuplicateCapability_request {last : Option ProtocolEvent} {e : ProtocolEvent}
    (h : e.kind = .request) : isDuplicateCapability last e = false := by
  cases last with
  | none => rfl
  | some p => simp [isDuplicateCapability, h]

/-- Below the cap a request is among the bounded events iff it is among the merged ones. -/
theorem mem_boundEvents {e : ProtocolEvent} (hkind : e.kind = .request) :
    ∀ {items : List Stamped} {last : Option ProtocolEvent} {bounded : List ProtocolEvent},
      (boundEvents last bounded items).length < maxEventsPerSession →
        (e ∈ boundEvents last bounded items ↔ e ∈ bounded ∨ ∃ item ∈ items, item.event = e)
  | [], last, bounded, _ => by simp [boundEvents]
  | item :: rest, last, bounded, h => by
    unfold boundEvents at h ⊢
    split at h
    · -- What is dropped as a repeat is a capability, so not this request.
      rename_i hdup
      rw [if_pos hdup, mem_boundEvents hkind h, List.exists_mem_cons_iff]
      have hne : item.event ≠ e := by
        rintro rfl
        rw [isDuplicateCapability_request hkind] at hdup
        exact absurd hdup (by simp)
      simp [hne]
    · rename_i hnew
      rw [if_neg hnew]
      split at h
      · -- At the cap the bounded list is full, which the hypothesis excludes.
        omega
      · rename_i hroom
        rw [if_neg hroom, mem_boundEvents hkind h, List.exists_mem_cons_iff, List.mem_append,
          List.mem_singleton, or_assoc, eq_comm]

end Sessions
end Normalize
end SecureMail
