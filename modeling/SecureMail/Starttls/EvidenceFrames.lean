import SecureMail.Starttls.Acceptance

/-!
# The frames a verdict cites

A verdict cites the frames it rests on, and an analyst opens the capture at just these. They are
collected at many points of the loop, and at every one of them the frame is that of the event the
loop is looking at, added if it is not there yet. So one pass either leaves the frames alone or adds
the frame of its event (`step_frames`), and what holds of the whole run follows: only frames of
events, none twice, and never one taken away. After the loop an accepted upgrade that was followed
by a ClientHello cites the frames of the ClientHello as well, and the sort makes the order strict.

The lemmas say less than the code does, on purpose: which test of the body adds the frame is not in
them, except for a credential command, whose frame is cited on every way through. A machine whose
tests are moved about keeps them.
-/

namespace SecureMail
namespace Starttls

/-! ## Adding what is not there yet -/

/-- `if frame not in frames: frames.append(frame)`. -/
def addNew (frames : List Nat) (f : Nat) : List Nat := if f ∈ frames then frames else frames ++ [f]

theorem mem_addNew {frames : List Nat} {f g : Nat} : g ∈ addNew frames f ↔ g ∈ frames ∨ g = f := by
  unfold addNew
  split
  · rename_i hmem
    constructor
    · exact Or.inl
    · intro h
      rcases h with h | rfl
      · exact h
      · exact hmem
  · simp

theorem nodup_addNew {frames : List Nat} (h : frames.Nodup) (f : Nat) : (addNew frames f).Nodup := by
  unfold addNew
  split
  · exact h
  · rename_i hnew
    rw [← List.concat_eq_append]
    exact h.concat hnew

theorem mem_foldl_addNew {l frames : List Nat} {g : Nat} :
    g ∈ l.foldl addNew frames ↔ g ∈ frames ∨ g ∈ l := by
  induction l generalizing frames with
  | nil => simp
  | cons f rest ih => rw [List.foldl_cons, ih, mem_addNew, List.mem_cons, or_assoc]

theorem nodup_foldl_addNew {l frames : List Nat} (h : frames.Nodup) :
    (l.foldl addNew frames).Nodup := by
  induction l generalizing frames with
  | nil => exact h
  | cons f rest ih => exact ih (nodup_addNew h f)

/-- The event stands in this frame. -/
def InFrame (e : ProtocolEvent) (f : Nat) : Prop := ∃ n, e.frameNumber = some n ∧ (n : Nat) = f

theorem addFrame_some {frames : List Nat} {e : ProtocolEvent} {n : ℕ+}
    (h : e.frameNumber = some n) : addFrame frames e = addNew frames n := by
  unfold addFrame
  rw [h]
  rfl

theorem addFrame_none {frames : List Nat} {e : ProtocolEvent} (h : e.frameNumber = none) :
    addFrame frames e = frames := by
  unfold addFrame
  rw [h]

theorem mem_addFrame {frames : List Nat} {e : ProtocolEvent} {f : Nat} :
    f ∈ addFrame frames e ↔ f ∈ frames ∨ InFrame e f := by
  unfold InFrame
  cases h : e.frameNumber with
  | none => simp [addFrame_none h]
  | some n =>
    rw [addFrame_some h, mem_addNew]
    simp [eq_comm]

theorem nodup_addFrame {frames : List Nat} (h : frames.Nodup) (e : ProtocolEvent) :
    (addFrame frames e).Nodup := by
  cases hframe : e.frameNumber with
  | none => rwa [addFrame_none hframe]
  | some n =>
    rw [addFrame_some hframe]
    exact nodup_addNew h n

theorem addFrame_addFrame (frames : List Nat) (e : ProtocolEvent) :
    addFrame (addFrame frames e) e = addFrame frames e := by
  cases hframe : e.frameNumber with
  | none => simp only [addFrame_none hframe]
  | some n =>
    simp only [addFrame_some hframe]
    exact if_pos (mem_addNew.mpr (Or.inr rfl))

namespace UpgradeMachine

variable (m : UpgradeMachine) (hello : Bool) (s : UpgradeRun) (e : ProtocolEvent)

/-! ## One pass -/

theorem observe_frames : (m.observe s e).frames = s.frames ∨
    (m.observe s e).frames = addFrame s.frames e := by
  unfold observe
  cases m.exchangesCapability e <;> cases m.advertises e <;> simp

/-- The tests of the body: the frame of the event is added or not, and a credential's always. -/
theorem advance_frames :
    (m.advance hello s e).frames = s.frames ∧ m.isCredentialRequest e = false ∨
      (m.advance hello s e).frames = addFrame s.frames e := by
  cases hk : e.kind with
  | request =>
    cases hu : m.isUpgradeRequest e with
    | true =>
      rw [advance_request _ _ _ _ hu]
      exact Or.inr rfl
    | false =>
      rw [advance_command _ _ _ _ hk hu]
      cases hc : m.isCredentialRequest e with
      | true =>
        right
        cases ha : s.accepted <;> cases hello <;> simp [credential, ha]
      | false =>
        cases (m.isHarmfulRequest e && s.accepted && !hello) with
        | true => exact Or.inr rfl
        | false => exact Or.inl ⟨rfl, rfl⟩
  | reply =>
    have hc : m.isCredentialRequest e = false := by simp [isCredentialRequest, hk]
    rw [advance_reply _ _ _ _ hk]
    cases s.awaitingReply with
    | false => exact Or.inl ⟨rfl, hc⟩
    | true =>
      cases hv : m.verdict s.pendingTag e with
      | accept | refuse => exact Or.inr (by simp [answer, hv])
      | settle | ignore => exact Or.inl ⟨by simp [answer, hv], hc⟩
  | starttls =>
    rw [advance_starttls _ _ _ _ hk]
    exact Or.inr rfl
  | unexpected =>
    have hc : m.isCredentialRequest e = false := by simp [isCredentialRequest, hk]
    rw [advance_unexpected _ _ _ _ hk]
    cases (s.accepted && !hello) with
    | true => exact Or.inr rfl
    | false => exact Or.inl ⟨rfl, hc⟩
  | capability | confirmation | ambiguousBanner =>
    have hc : m.isCredentialRequest e = false := by simp [isCredentialRequest, hk]
    rw [advance_other _ _ _ _ (by simp [hk]) (by simp [hk]) (by simp [hk]) (by simp [hk])]
    exact Or.inl ⟨rfl, hc⟩

/-- **A pass adds the frame of its event or none**, and for a credential it adds it. -/
theorem step_frames :
    (m.step hello s e).frames = s.frames ∧ m.isCredentialRequest e = false ∨
      (m.step hello s e).frames = addFrame s.frames e := by
  rw [step]
  rcases m.observe_frames s e with hobserve | hobserve
  · rcases m.advance_frames hello (m.observe s e) e with ⟨h, hc⟩ | h
    · exact Or.inl ⟨h.trans hobserve, hc⟩
    · exact Or.inr (by rw [h, hobserve])
  · -- The event is cited already, so adding its frame again changes nothing.
    right
    rcases m.advance_frames hello (m.observe s e) e with ⟨h, -⟩ | h
    · exact h.trans hobserve
    · rw [h, hobserve, addFrame_addFrame]

/-! ## The whole loop -/

variable {m hello s e} {events : List ProtocolEvent} {f : Nat}

theorem frames_subset_step : s.frames ⊆ (m.step hello s e).frames := by
  intro f hf
  rcases m.step_frames hello s e with ⟨h, -⟩ | h
  · rwa [h]
  · rw [h, mem_addFrame]
    exact Or.inl hf

theorem frames_subset_foldl : s.frames ⊆ (events.foldl (m.step hello) s).frames := by
  induction events generalizing s with
  | nil => exact List.Subset.refl _
  | cons e rest ih =>
    rw [List.foldl_cons]
    exact List.Subset.trans frames_subset_step ih

theorem nodup_frames_foldl (h : s.frames.Nodup) : (events.foldl (m.step hello) s).frames.Nodup := by
  induction events generalizing s with
  | nil => exact h
  | cons e rest ih =>
    rw [List.foldl_cons]
    apply ih
    rcases m.step_frames hello s e with ⟨hstep, -⟩ | hstep
    · rwa [hstep]
    · rw [hstep]
      exact nodup_addFrame h e

theorem mem_frames_foldl (hf : f ∈ (events.foldl (m.step hello) s).frames) :
    f ∈ s.frames ∨ ∃ e ∈ events, InFrame e f := by
  induction events generalizing s with
  | nil => exact Or.inl hf
  | cons e rest ih =>
    rw [List.foldl_cons] at hf
    rcases ih hf with hstep | ⟨d, hd, hin⟩
    · rcases m.step_frames hello s e with ⟨h, -⟩ | h
      · exact Or.inl (h ▸ hstep)
      · rw [h, mem_addFrame] at hstep
        exact hstep.imp_right fun hin => ⟨e, List.mem_cons_self, hin⟩
    · exact Or.inr ⟨d, List.mem_cons_of_mem _ hd, hin⟩

/-- The frame of a credential is added when the loop meets it, and stays. -/
theorem credential_mem_frames_foldl (he : e ∈ events) (hc : m.isCredentialRequest e = true)
    (hin : InFrame e f) : f ∈ (events.foldl (m.step hello) s).frames := by
  obtain ⟨before, after, rfl⟩ := List.append_of_mem he
  rw [List.foldl_append, List.foldl_cons]
  apply frames_subset_foldl
  rcases m.step_frames hello (before.foldl (m.step hello) s) e with ⟨-, hnot⟩ | h
  · rw [hc] at hnot
    exact absurd hnot (by simp)
  · rw [h, mem_addFrame]
    exact Or.inr hin

/-! ## After the loop -/

/-- What the verdict cites: what the loop collected, and the ClientHello of an accepted upgrade. -/
theorem mem_evidenceFrames {helloFrames : List Nat} :
    f ∈ (m.upgrade events hello helloFrames).evidenceFrames ↔
      f ∈ (m.run hello events).frames ∨
        (AcceptedBefore m events events.length ∧ hello = true) ∧ f ∈ helloFrames := by
  rw [← accepted_run hello]
  unfold upgrade conclude
  dsimp only
  rw [(List.perm_insertionSort _ _).mem_iff]
  by_cases haccepted : ((m.run hello events).accepted && hello) = true
  · rw [if_pos haccepted]
    have hfold : f ∈ helloFrames.foldl addNew (m.run hello events).frames ↔
        f ∈ (m.run hello events).frames ∨ f ∈ helloFrames := mem_foldl_addNew
    rw [Bool.and_eq_true] at haccepted
    exact hfold.trans (or_congr_right (and_iff_right haccepted).symm)
  · rw [if_neg haccepted]
    rw [Bool.and_eq_true] at haccepted
    simp [haccepted]

theorem evidenceFrames_increasing (helloFrames : List Nat) :
    (m.upgrade events hello helloFrames).evidenceFrames.Pairwise (· < ·) := by
  unfold upgrade conclude
  dsimp only
  generalize hframes : (if ((m.run hello events).accepted && hello) = true then
    helloFrames.foldl (fun fs f => if f ∈ fs then fs else fs ++ [f]) (m.run hello events).frames
    else (m.run hello events).frames) = frames
  have hrun : (m.run hello events).frames.Nodup := nodup_frames_foldl List.nodup_nil
  have hnodup : frames.Nodup := by
    rw [← hframes]
    split
    · exact nodup_foldl_addNew hrun
    · exact hrun
  have hsorted := List.pairwise_insertionSort (· ≤ ·) frames
  have hdistinct := (List.perm_insertionSort (· ≤ ·) frames).nodup_iff.mpr hnodup
  exact (hsorted.and hdistinct).imp fun h => Nat.lt_of_le_of_ne h.1 h.2

end UpgradeMachine

/-! ## What a citation promises -/

/-- The frames of a verdict are in order, each is there for a reason, and what must be there is. What
must be there is what the verdict accuses someone of: the ClientHello that ended the plaintext, and
every credential that was sent in it. -/
structure Genuine (m : UpgradeMachine) (events : List ProtocolEvent) (hello : Bool)
    (helloFrames : List Nat) (verdict : ExplicitUpgrade) : Prop where
  increasing : verdict.evidenceFrames.Pairwise (· < ·)
  genuine : ∀ f ∈ verdict.evidenceFrames, (∃ e ∈ events, InFrame e f) ∨
    AcceptedBefore m events events.length ∧ hello = true ∧ f ∈ helloFrames
  hello : AcceptedBefore m events events.length → hello = true →
    ∀ f ∈ helloFrames, f ∈ verdict.evidenceFrames
  credentials : ∀ e ∈ events, m.isCredentialRequest e = true → ∀ f, InFrame e f →
    f ∈ verdict.evidenceFrames

theorem UpgradeMachine.genuine (m : UpgradeMachine) (events : List ProtocolEvent) (hello : Bool)
    (helloFrames : List Nat) :
    Genuine m events hello helloFrames (m.upgrade events hello helloFrames) where
  increasing := evidenceFrames_increasing helloFrames
  genuine f hf := by
    rcases mem_evidenceFrames.mp hf with hrun | ⟨⟨haccepted, hhello⟩, hf⟩
    · rcases mem_frames_foldl hrun with hstart | hevent
      · exact absurd hstart List.not_mem_nil
      · exact Or.inl hevent
    · exact Or.inr ⟨haccepted, hhello, hf⟩
  hello haccepted hhello f hf := mem_evidenceFrames.mpr (Or.inr ⟨⟨haccepted, hhello⟩, hf⟩)
  credentials e he hc f hin :=
    mem_evidenceFrames.mpr (Or.inl (credential_mem_frames_foldl he hc hin))

/-- **The evidence of every upgrade verdict is genuine**, for each of the three machines. A frame it
cites is one of an event that the machine has read, or one of a ClientHello. -/
theorem evidence_genuine (events : List ProtocolEvent) (hello : Bool) (helloFrames : List Nat) :
    Genuine Smtp.machine events hello helloFrames (smtpUpgrade events hello helloFrames) ∧
      Genuine Imap.machine events hello helloFrames (imapUpgrade events hello helloFrames) ∧
      Genuine Pop3.machine events hello helloFrames (pop3Upgrade events hello helloFrames) :=
  ⟨Smtp.machine.genuine events hello helloFrames, Imap.machine.genuine events hello helloFrames,
    Pop3.machine.genuine events hello helloFrames⟩

end Starttls
end SecureMail
