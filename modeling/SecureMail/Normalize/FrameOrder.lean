import SecureMail.Normalize.Absorption

/-!
# Whose frame an event cites

Where the two analyzers saw the same events at the same times, each Zeek event has a twin, and its
frame is the one to cite. The search takes the nearest free event, and of several at one distance
the last. So a TShark event goes to its own twin exactly when no later Zeek event of the same time
would do as well; otherwise it goes past it, and from there on the frames cross.

The order of times does not help: equal times are common in a capture, as both analyzers see the
time of one packet for all that it carries. So the condition is on ties. `Untied` reads the two
lists side by side and asks at each place that no later Zeek event would be chosen over the twin,
and it is exact: where it fails the frame that is cited is another.
-/

namespace SecureMail
namespace Normalize
namespace Sessions

variable {t z : Stamped} {zs ts taken kept zeek tshark : List Stamped}

/-- One event as both analyzers saw it. Of the two, TShark alone knows a frame. Both read the time
of one packet, so the times are equal. -/
structure Twin (z t : Stamped) : Prop where
  free : z.matched = false
  uid : z.uid = t.uid
  time : z.ts.eq t.ts = true
  compatible : compatible z.event t.event = true
  uncited : z.event.frameNumber = none
  cited : t.event.frameNumber.isSome = true

/-- The event could take the TShark event, and at no distance. The search takes the last of such
events, so a tie behind the twin is what misleads it. -/
def Tied (t z : Stamped) : Prop := Eligible t z ∧ z.ts.eq t.ts = true

instance (t z : Stamped) : Decidable (Tied t z) := by
  unfold Tied
  infer_instance

theorem Twin.eligible (h : Twin z t) : Eligible t z := ⟨h.free, h.uid, h.compatible⟩

/-! ## The search -/

/-- Nothing is near a time that is not finite. -/
theorem bestMatch_of_not_finite (h : ¬t.ts.Finite) : bestMatch zeek t = none := by
  cases hmatch : bestMatch zeek t with
  | none => rfl
  | some i =>
    obtain ⟨z, -, -, hwithin⟩ := bestMatch_eq_some hmatch
    have hfar : (z.ts.sub t.ts).abs = .nan ∨ (z.ts.sub t.ts).abs = .inf false :=
      Py.Float.abs_sub_of_not_finite h
    unfold Within at hwithin
    rcases hfar with hfar | hfar
    · rw [hfar] at hwithin
      exact absurd hwithin (by decide +kernel)
    · rw [hfar] at hwithin
      exact absurd hwithin (by decide +kernel)

/-- Taken events are passed over. -/
theorem search_taken (htaken : ∀ x ∈ taken, x.matched = true) (n : Nat)
    (best : Option Nat × Py.Float) : (taken.zipIdx n).foldl (matchStep t) best = best := by
  induction taken generalizing n with
  | nil => rfl
  | cons x rest ih =>
    have hstep : matchStep t best (x, n) = best := by
      apply if_neg
      rintro ⟨⟨hfree, -⟩, -⟩
      rw [htaken x List.mem_cons_self] at hfree
      exact absurd hfree (by simp)
    rw [List.zipIdx_cons, List.foldl_cons, hstep]
    exact ih (fun y hy => htaken y (List.mem_cons_of_mem _ hy)) _

theorem matchStep_near {best : Option Nat × Py.Float} {n : Nat} (h : Eligible t z)
    (hnear : (z.ts.sub t.ts).abs.le best.2 = true) :
    matchStep t best (z, n) = (some n, (z.ts.sub t.ts).abs) := if_pos ⟨h, hnear⟩

/-- At no distance, only a tied event is as near. -/
theorem matchStep_untied (hfinite : t.ts.Finite) {best : Option Nat × Py.Float}
    (hbest : best.2.IsZero) {n : Nat} (h : ¬Tied t z) : matchStep t best (z, n) = best := by
  apply if_neg
  rintro ⟨heligible, hnear⟩
  have hzero := (Py.Float.abs_le_iff_isZero hbest).mp hnear
  exact h ⟨heligible, (Py.Float.isZero_abs_sub_iff hfinite).mp hzero⟩

/-- From a match at no distance, the search goes to the last tied event. -/
theorem search_tied (hfinite : t.ts.Finite) (zs : List Stamped) (best : Option Nat × Py.Float)
    (hbest : best.2.IsZero) (n : Nat) :
    ((∀ z' ∈ zs, ¬Tied t z') ∧ (zs.zipIdx n).foldl (matchStep t) best = best) ∨
      ∃ i z', zs[i]? = some z' ∧ Tied t z' ∧
        ((zs.zipIdx n).foldl (matchStep t) best).1 = some (n + i) := by
  induction zs generalizing n best with
  | nil => exact Or.inl ⟨by simp, rfl⟩
  | cons z rest ih =>
    rw [List.zipIdx_cons, List.foldl_cons]
    by_cases htied : Tied t z
    · right
      have hzero : (z.ts.sub t.ts).abs.IsZero := (Py.Float.isZero_abs_sub_iff hfinite).mpr htied.2
      have hnear := (Py.Float.abs_le_iff_isZero hbest).mpr hzero
      rw [matchStep_near htied.1 hnear]
      rcases ih (some n, (z.ts.sub t.ts).abs) hzero (n + 1) with
        ⟨-, hrun⟩ | ⟨i, z', hz', htied', hrun⟩
      · exact ⟨0, z, rfl, htied, by rw [hrun, Nat.add_zero]⟩
      · exact ⟨i + 1, z', hz', htied', by rw [hrun, Nat.add_right_comm, Nat.add_assoc]⟩
    · rw [matchStep_untied hfinite hbest htied]
      rcases ih best hbest (n + 1) with ⟨hnone, hrun⟩ | ⟨i, z', hz', htied', hrun⟩
      · exact Or.inl ⟨List.forall_mem_cons.mpr ⟨htied, hnone⟩, hrun⟩
      · exact Or.inr ⟨i + 1, z', hz', htied', by rw [hrun, Nat.add_right_comm, Nat.add_assoc]⟩

/-- **Where the search goes**: to the twin if no later event is tied with it, else past it. -/
theorem bestMatch_twin (htaken : ∀ x ∈ taken, x.matched = true) (htwin : Twin z t)
    (hfinite : t.ts.Finite) (zs : List Stamped) :
    ((∀ z' ∈ zs, ¬Tied t z') ∧ bestMatch (taken ++ z :: zs) t = some taken.length) ∨
      ∃ i z', zs[i]? = some z' ∧ Tied t z' ∧
        bestMatch (taken ++ z :: zs) t = some (taken.length + (i + 1)) := by
  have hzero : (z.ts.sub t.ts).abs.IsZero := (Py.Float.isZero_abs_sub_iff hfinite).mpr htwin.time
  have hnear : (z.ts.sub t.ts).abs.le mergeWindowSeconds = true := by
    unfold mergeWindowSeconds
    exact Py.Float.isZero_le_ofNat hzero 2
  rw [bestMatch_eq_foldl, List.zipIdx_append, List.foldl_append, search_taken htaken,
    List.zipIdx_cons, List.foldl_cons, matchStep_near htwin.eligible (by dsimp only; exact hnear),
    Nat.zero_add]
  rcases search_tied hfinite zs (some taken.length, (z.ts.sub t.ts).abs) hzero
    (taken.length + 1) with ⟨hnone, hrun⟩ | ⟨i, z', hz', htied, hrun⟩
  · exact Or.inl ⟨hnone, by rw [hrun]⟩
  · exact Or.inr ⟨i, z', hz', htied, by rw [hrun, Nat.add_assoc, Nat.add_comm 1]⟩

/-! ## The run -/

/-- Each TShark event has a finite time, a command if it is a request, and no Zeek event tied with
it behind its twin. It is on the inputs of the merge, list against list, and mentions neither the
search nor its result. -/
def Untied : List Stamped → List Stamped → Prop
  | _ :: zs, t :: ts =>
      (t.ts.Finite ∧ ¬(t.event.kind = .request ∧ t.event.command = none) ∧ ∀ z' ∈ zs, ¬Tied t z') ∧
        Untied zs ts
  | _, _ => True

/-- A taken event is as it will come out. -/
theorem getElem?_run_of_matched {i : Nat} {x : Stamped} (hx : zeek[i]? = some x)
    (hmatched : x.matched = true) : (tshark.foldl mergeStep (zeek, kept)).1[i]? = some x := by
  obtain ⟨log, kept', dropped, hrun, hlog⟩ := exists_mergeLog tshark zeek kept
  rw [hrun]
  rcases hlog.getElem?_absorbed hx with ⟨-, hsame⟩ | ⟨x', hgift, -⟩
  · exact hsame
  · obtain ⟨z, hz, ⟨hfree, -⟩, -⟩ := hlog.mates _ hgift
    obtain rfl := Option.some.inj (hx.symm.trans hz)
    rw [hmatched] at hfree
    exact absurd hfree (by simp)

/-- Any other comes out as it is, or with one of the TShark events still to come. -/
theorem getElem?_run (tshark kept : List Stamped) {i : Nat} (hz : zeek[i]? = some z) :
    (tshark.foldl mergeStep (zeek, kept)).1[i]? = some z ∨
      ∃ t ∈ tshark, (tshark.foldl mergeStep (zeek, kept)).1[i]? = some (z.absorb t) := by
  obtain ⟨log, kept', dropped, hrun, hlog⟩ := exists_mergeLog tshark zeek kept
  rw [hrun]
  rcases hlog.getElem?_absorbed hz with ⟨-, hsame⟩ | ⟨t, hgift, habsorb⟩
  · exact Or.inl hsame
  · refine Or.inr ⟨t, ?_, habsorb⟩
    apply hlog.fates.mem_iff.mpr
    exact List.mem_append_left _ (List.mem_append_left _ (List.mem_map_of_mem (f := Prod.snd) hgift))

theorem absorb_frameNumber (hcited : t.event.frameNumber.isSome = true) :
    (z.absorb t).event.frameNumber = t.event.frameNumber := by
  obtain ⟨n, hn⟩ := Option.isSome_iff_exists.mp hcited
  simp [Stamped.absorb, withTsharkEvidence, hn]

/-- An uncited event that the run leaves for later never gets the frame of a TShark event that is
gone. -/
theorem uncited_of_gone {i : Nat} (hz : zeek[i]? = some z) (hnone : z.event.frameNumber = none)
    (hcited : ∀ t ∈ tshark, t.event.frameNumber.isSome = true)
    (hcited' : t.event.frameNumber.isSome = true)
    (hgone : t.event.frameNumber ∉ tshark.map (·.event.frameNumber)) :
    ∃ x, (tshark.foldl mergeStep (zeek, kept)).1[i]? = some x ∧
      x.event.frameNumber ≠ t.event.frameNumber := by
  rcases getElem?_run tshark kept hz with hrun | ⟨t', ht', hrun⟩
  · refine ⟨z, hrun, ?_⟩
    rw [hnone]
    rintro hn
    rw [← hn] at hcited'
    exact absurd hcited' (by simp)
  · refine ⟨z.absorb t', hrun, ?_⟩
    rw [absorb_frameNumber (hcited t' ht')]
    intro hn
    exact hgone (hn ▸ List.mem_map_of_mem ht')

theorem cited_of_twins (h : List.Forall₂ Twin zs ts) :
    ∀ t ∈ ts, t.event.frameNumber.isSome = true := by
  induction h with
  | nil => simp
  | cons htwin _ ih => exact List.forall_mem_cons.mpr ⟨htwin.cited, ih⟩

theorem twin_of_getElem? (h : List.Forall₂ Twin zs ts) {i : Nat} (hz : zs[i]? = some z) :
    ∃ t, ts[i]? = some t ∧ Twin z t := by
  induction h generalizing i with
  | nil => exact absurd hz (by simp)
  | @cons z' t zs ts htwin _ ih =>
    cases i with
    | zero =>
      obtain rfl := Option.some.inj hz
      exact ⟨t, rfl, htwin⟩
    | succ i => exact ih hz

theorem modify_length_append (f : Stamped → Stamped) :
    (taken ++ z :: zs).modify taken.length f = (taken ++ [f z]) ++ zs := by
  induction taken with
  | nil => rfl
  | cons x rest ih =>
    rw [List.cons_append, List.length_cons, List.modify_succ_cons, ih]
    rfl

/-- **Each twin gets its frame exactly when nothing is tied**, from any point of the run at which
the events before are taken. -/
theorem cites_iff_untied (htwins : List.Forall₂ Twin zs ts)
    (hframes : (ts.map (·.event.frameNumber)).Nodup) (htaken : ∀ x ∈ taken, x.matched = true)
    (kept : List Stamped) :
    (∀ k x t, (ts.foldl mergeStep (taken ++ zs, kept)).1[taken.length + k]? = some x →
      ts[k]? = some t → x.event.frameNumber = t.event.frameNumber) ↔ Untied zs ts := by
  induction htwins generalizing taken kept with
  | nil => simp [Untied]
  | @cons z t zs ts htwin htwins ih =>
    rw [List.map_cons, List.nodup_cons] at hframes
    obtain ⟨hgone, hframes⟩ := hframes
    have hcited := cited_of_twins htwins
    have hz : (taken ++ z :: zs)[taken.length]? = some z := by simp
    rw [List.foldl_cons, mergeStep]
    by_cases hnameless : t.event.kind = .request ∧ t.event.command = none
    · -- The TShark event is dropped.
      rw [if_pos hnameless]
      refine iff_of_false (fun h => ?_) fun h => h.1.2.1 hnameless
      obtain ⟨x, hx, hne⟩ := uncited_of_gone hz htwin.uncited hcited htwin.cited hgone
      exact hne (h 0 x t hx rfl)
    rw [if_neg hnameless]
    by_cases hfinite : t.ts.Finite
    · rcases bestMatch_twin htaken htwin hfinite zs with
        ⟨hnone, hmatch⟩ | ⟨i, z', hz', htied, hmatch⟩
      · -- It goes to its twin, which is taken from here on.
        rw [hmatch]
        dsimp only
        rw [modify_length_append]
        have htaken' : ∀ x ∈ taken ++ [z.absorb t], x.matched = true := by
          intro x hx
          rcases List.mem_append.mp hx with hx | hx
          · exact htaken x hx
          · rw [List.mem_singleton.mp hx]
            rfl
        have hhere : (ts.foldl mergeStep (taken ++ [z.absorb t] ++ zs, kept)).1[taken.length]? =
            some (z.absorb t) := getElem?_run_of_matched (by simp) rfl
        have hrest := ih hframes htaken' kept
        rw [List.length_append, List.length_singleton] at hrest
        rw [Untied, and_iff_right ⟨hfinite, hnameless, hnone⟩, ← hrest]
        constructor
        · intro h k x t' hx ht'
          rw [Nat.add_assoc, Nat.add_comm 1] at hx
          exact h (k + 1) x t' hx ht'
        · intro h k x t' hx ht'
          cases k with
          | zero =>
            obtain rfl := Option.some.inj (hhere.symm.trans hx)
            obtain rfl := Option.some.inj ht'
            exact absorb_frameNumber htwin.cited
          | succ k =>
            rw [Nat.add_comm k, ← Nat.add_assoc] at hx
            exact h k x t' hx ht'
      · -- It goes past its twin, to one whose own frame is another.
        rw [hmatch]
        dsimp only
        refine iff_of_false (fun h => ?_) fun h => h.1.2.2 z' (List.mem_of_getElem? hz') htied
        obtain ⟨t', ht', -⟩ := twin_of_getElem? htwins hz'
        have hthere : (ts.foldl mergeStep ((taken ++ z :: zs).modify (taken.length + (i + 1))
            (·.absorb t), kept)).1[taken.length + (i + 1)]? = some (z'.absorb t) := by
          apply getElem?_run_of_matched _ rfl
          rw [List.getElem?_modify_eq, List.getElem?_append_right (Nat.le_add_right _ _),
            Nat.add_sub_cancel_left, List.getElem?_cons_succ, hz']
          rfl
        have hcross := h (i + 1) (z'.absorb t) t' hthere ht'
        rw [absorb_frameNumber htwin.cited] at hcross
        exact hgone (hcross ▸ List.mem_map_of_mem (List.mem_of_getElem? ht'))
    · -- It is near no event.
      rw [bestMatch_of_not_finite hfinite]
      refine iff_of_false (fun h => ?_) fun h => hfinite h.1.1
      obtain ⟨x, hx, hne⟩ := uncited_of_gone hz htwin.uncited hcited htwin.cited hgone
      exact hne (h 0 x t hx rfl)

/-! ## The whole merge -/

/-- The k-th events of the two analyzers are twins, frames are all different, and so are stamps. It
is what the two analyzers would write if both saw every packet and neither made a mistake. -/
structure SameCapture (zeek tshark : List Stamped) : Prop where
  twins : List.Forall₂ Twin zeek tshark
  frames : (tshark.map (·.event.frameNumber)).Nodup
  orders : ((zeek ++ tshark).map (·.order)).Nodup

/-- Every Zeek event comes out citing the frame of its twin. -/
def CitesTwin (zeek tshark : List Stamped) : Prop :=
  ∀ (k : Nat) z t, zeek[k]? = some z → tshark[k]? = some t →
    ∃ x ∈ mergeEvents zeek tshark, Recited z x ∧ x.event.frameNumber = t.event.frameNumber

theorem Recited.order {z x : Stamped} (h : Recited z x) : x.order = z.order := by
  rw [h]

theorem mem_mergeEvents {x : Stamped} : x ∈ mergeEvents zeek tshark ↔
    x ∈ (tshark.foldl mergeStep (zeek, [])).1 ++ (tshark.foldl mergeStep (zeek, [])).2 := by
  unfold mergeEvents
  exact (List.perm_insertionSort _ _).mem_iff

/-- **The merge cites each twin's frame exactly when nothing is tied.** The condition is on the two
inputs of the merge and asks nothing of what the merge returns. -/
theorem citesTwin_iff_untied (h : SameCapture zeek tshark) :
    CitesTwin zeek tshark ↔ Untied zeek tshark := by
  rw [← cites_iff_untied h.twins h.frames (List.forall_mem_nil _) []]
  obtain ⟨log, kept, dropped, hrun, hlog⟩ := exists_mergeLog tshark zeek []
  unfold CitesTwin
  simp only [List.nil_append, List.length_nil, Nat.zero_add, mem_mergeEvents, hrun]
  constructor
  · intro hcites k x t hx ht
    have horder : zeek[k]?.map (·.order) = some x.order := by
      rw [← List.getElem?_map, ← orders_absorbed, List.getElem?_map, hx]
      rfl
    obtain ⟨z, hz, horder⟩ := Option.map_eq_some_iff.mp horder
    obtain ⟨x', hx', hrecited, hframe⟩ := hcites k z t hz ht
    -- Stamps tell the events that come out apart.
    have hsame : x' = x :=
      List.inj_on_of_nodup_map (orders_absorbed_append hlog h.orders) hx'
        (List.mem_append_left _ (List.mem_of_getElem? hx)) (hrecited.order.trans horder)
    rw [← hsame, hframe]
  · intro hcites k z t hz ht
    rcases hlog.getElem?_absorbed hz with ⟨-, hsame⟩ | ⟨x, -, habsorb⟩
    · exact ⟨z, List.mem_append_left _ (List.mem_of_getElem? hsame), recited_self z,
        hcites k z t hsame ht⟩
    · exact ⟨z.absorb x, List.mem_append_left _ (List.mem_of_getElem? habsorb),
        recited_absorb z x, hcites k _ t habsorb ht⟩

/-- A NOOP that Zeek saw. -/
def zeekNoop (seconds order : Nat) : Stamped := noted seconds order .request (some "NOOP")

/-- A NOOP that TShark saw, in its frame. -/
def tsharkNoop (seconds order : Nat) (frame : ℕ+) : Stamped :=
  let noop := zeekNoop seconds order
  { noop with event := { noop.event with frameNumber := some frame } }

theorem twin_noop (seconds order order' : Nat) (frame : ℕ+) :
    Twin (zeekNoop seconds order) (tsharkNoop seconds order' frame) where
  free := rfl
  uid := rfl
  time := by
    dsimp only [zeekNoop, tsharkNoop, noted]
    exact Py.Float.ofNat_eq_self seconds
  compatible := by simp [compatible, zeekNoop, tsharkNoop, noted, ProtocolEvent.upperCommand]
  uncited := rfl
  cited := rfl

theorem sameCapture_noops (s s' : Nat) :
    SameCapture [zeekNoop s 0, zeekNoop s' 1] [tsharkNoop s 2 1, tsharkNoop s' 3 2] where
  twins := .cons (twin_noop s 0 2 1) (.cons (twin_noop s' 1 3 2) .nil)
  frames := by simp [tsharkNoop]
  orders := by simp [tsharkNoop, zeekNoop, noted]

/-- Seconds apart each cites its own frame, and in one instant neither does. -/
theorem citesTwin_eachWay :
    CitesTwin [zeekNoop 10 0, zeekNoop 11 1] [tsharkNoop 10 2 1, tsharkNoop 11 3 2] ∧
      ¬CitesTwin [zeekNoop 10 0, zeekNoop 10 1] [tsharkNoop 10 2 1, tsharkNoop 10 3 2] := by
  constructor
  · rw [citesTwin_iff_untied (sameCapture_noops 10 11)]
    exact ⟨⟨by decide +kernel, by decide, by decide +kernel⟩,
      ⟨by decide +kernel, by decide, by decide⟩, trivial⟩
  · rw [citesTwin_iff_untied (sameCapture_noops 10 10)]
    have htied : Tied (tsharkNoop 10 2 1) (zeekNoop 10 1) := by decide +kernel
    exact fun h => h.1.2.2 _ (List.mem_singleton_self _) htied

/-- Two commands of one instant come out with each other's frame. -/
theorem tied_frames_cross :
    SameCapture [zeekNoop 10 0, zeekNoop 10 1] [tsharkNoop 10 2 1, tsharkNoop 10 3 2] ∧
      (mergeEvents [zeekNoop 10 0, zeekNoop 10 1] [tsharkNoop 10 2 1, tsharkNoop 10 3 2]).map
        (fun x => (x.order, x.event.frameNumber)) = [(0, some 2), (1, some 1)] ∧
      ¬CitesTwin [zeekNoop 10 0, zeekNoop 10 1] [tsharkNoop 10 2 1, tsharkNoop 10 3 2] := by
  have hcrossed : ∀ x ∈ mergeEvents [zeekNoop 10 0, zeekNoop 10 1]
      [tsharkNoop 10 2 1, tsharkNoop 10 3 2], x.order = 0 → x.event.frameNumber ≠ some 1 := by
    decide +kernel
  refine ⟨sameCapture_noops 10 10, by decide +kernel, ?_⟩
  intro hcites
  obtain ⟨x, hx, hrecited, hframe⟩ := hcites 0 _ _ rfl rfl
  exact hcrossed x hx hrecited.order hframe

end Sessions
end Normalize
end SecureMail
