import SecureMail.Jobs.Idempotence
import SecureMail.Lib.Chunked

/-!
# Chunks of an upload

The loop of `stage_capture` draws one chunk after the other through `_BoundedChunks`, which counts
the bytes and gives up beyond the limit, and digests it, adds its length and completes the first
four bytes. How a capture is cut is up to the client and to the network, and a store that answered
two cuts of one capture differently could be told the same file twice.

The two are a generator and a loop over it, and neither alone is blind to the cuts in a way that
composes: the generator stops in the middle of the list, and what the loop has done by then has to
be forgotten. `Drawing` is the state of both together. One pass of the pair is a function that takes
a chunk in two pieces to where the whole chunk takes it, an error included, and by the library any
fold of such a function sees only the concatenation.
-/

namespace SecureMail
namespace Jobs

open Chunked (Blind)

/-- The generator and the loop that draws from it: the bytes counted and what is staged. -/
structure Drawing where
  counted : Nat := 0
  staging : Staging := {}

/-- One chunk through `_BoundedChunks` and the loop. An empty chunk is passed over, so that a cut may
have as many of them as it likes. -/
def Drawing.draw (maxBytes : Nat) (drawing : Drawing) (chunk : List UInt8) :
    Except IntakeError Drawing :=
  if chunk.isEmpty then .ok drawing
  else if maxBytes < drawing.counted + chunk.length then .error (.captureTooLarge maxBytes)
  else .ok ⟨drawing.counted + chunk.length, drawing.staging.chunk chunk⟩

@[simp] theorem Staging.chunk_nil (staging : Staging) : staging.chunk [] = staging := by
  simp [Staging.chunk]

/-- The loop is where it is after the first piece and then the second. -/
theorem Staging.chunk_append (staging : Staging) (chunk chunk' : List UInt8) :
    staging.chunk (chunk ++ chunk') = (staging.chunk chunk).chunk chunk' := by
  have hheader : (staging.chunk (chunk ++ chunk')).header =
      ((staging.chunk chunk).chunk chunk').header := by
    show (if _ then _ else _) = if List.length (if _ then _ else _) < 4 then _ else _
    by_cases hshort : staging.header.length < 4
    · -- The first piece may or may not complete the four bytes.
      simp only [Staging.chunk, hshort, if_true, List.length_append, List.length_take]
      rw [List.take_append, ← List.append_assoc]
      by_cases hopen : staging.header.length + min (4 - staging.header.length) chunk.length < 4
      · have hleft : 4 - (staging.header.length + min (4 - staging.header.length) chunk.length) =
            4 - staging.header.length - chunk.length := by omega
        rw [if_pos hopen, hleft]
      · have hleft : 4 - staging.header.length - chunk.length = 0 := by omega
        rw [if_neg hopen, hleft, List.take_zero, List.append_nil]
    · simp [Staging.chunk, hshort]
  simp only [Staging.chunk] at hheader ⊢
  simp [hheader, Nat.add_assoc]

theorem Drawing.draw_nil (maxBytes : Nat) (drawing : Drawing) :
    drawing.draw maxBytes [] = .ok drawing := rfl

theorem Drawing.draw_of_ne_nil {chunk : List UInt8} (h : chunk ≠ []) (maxBytes : Nat)
    (drawing : Drawing) : drawing.draw maxBytes chunk =
      if maxBytes < drawing.counted + chunk.length then .error (.captureTooLarge maxBytes)
      else .ok ⟨drawing.counted + chunk.length, drawing.staging.chunk chunk⟩ := by
  simp [Drawing.draw, h]

/-- Neither the generator nor the loop sees where a chunk ends. -/
theorem blind_draw (maxBytes : Nat) : Blind (Drawing.draw maxBytes) where
  nil := Drawing.draw_nil maxBytes
  append drawing chunk chunk' := by
    by_cases hfirst : chunk = []
    · simp [hfirst, Drawing.draw_nil, bind, Except.bind]
    by_cases hsecond : chunk' = []
    · rw [hsecond, List.append_nil]
      cases drawing.draw maxBytes chunk <;> rfl
    have hwhole : chunk ++ chunk' ≠ [] := fun h => hfirst (List.append_eq_nil_iff.mp h).1
    rw [Drawing.draw_of_ne_nil hwhole, Drawing.draw_of_ne_nil hfirst, List.length_append,
      ← Nat.add_assoc]
    by_cases hchunk : maxBytes < drawing.counted + chunk.length
    · have hboth : maxBytes < drawing.counted + chunk.length + chunk'.length := by omega
      rw [if_pos hchunk, if_pos hboth]
      rfl
    · rw [if_neg hchunk, Staging.chunk_append]
      exact (Drawing.draw_of_ne_nil hsecond maxBytes
        ⟨drawing.counted + chunk.length, drawing.staging.chunk chunk⟩).symm

/-- The loop over the generator is the loop over the chunks that the generator lets through. -/
theorem foldlM_draw (maxBytes : Nat) (chunks : List (List UInt8)) (drawing : Drawing) :
    (chunks.foldlM (Drawing.draw maxBytes) drawing).map (·.staging) =
      (boundedChunks maxBytes drawing.counted chunks).map
        fun kept => kept.foldl Staging.chunk drawing.staging := by
  induction chunks generalizing drawing with
  | nil => rfl
  | cons chunk rest ih =>
    rw [List.foldlM_cons, boundedChunks, Drawing.draw]
    by_cases hempty : chunk.isEmpty = true
    · rw [if_pos hempty, if_pos hempty]
      exact ih drawing
    by_cases hlong : maxBytes < drawing.counted + chunk.length
    · rw [if_neg hempty, if_neg hempty, if_pos hlong, if_pos hlong]
      rfl
    · rw [if_neg hempty, if_neg hempty, if_neg hlong, if_neg hlong]
      refine (ih ⟨drawing.counted + chunk.length, drawing.staging.chunk chunk⟩).trans ?_
      cases boundedChunks maxBytes (drawing.counted + chunk.length) rest <;> rfl

section

variable {host : Host} {store : JobStore} {token : Token}

/-- What `stage_capture` does after its loop. An empty upload is found only here, when nothing more
comes. -/
def JobStore.endStaging (host : Host) (store : JobStore) (uploadId : Identifier)
    (staging : Staging) : Except IntakeError (StagedCapture × JobStore) :=
  if staging.size = 0 then .error .captureEmpty
  else
    .ok (⟨uploadId, host.sha256 staging.digested, staging.size, staging.header.take 4⟩,
      { store with quarantine := (uploadId, staging.size) :: store.quarantine })

theorem stageCapture_eq_draw (maxBytes : Nat) (chunks : List (List UInt8)) :
    store.stageCapture host token maxBytes chunks =
      if (store.quarantine.lookup (uploadIdOf token)).isSome then .error .cannotCreate
      else (chunks.foldlM (Drawing.draw maxBytes) {}).map (·.staging) >>=
        store.endStaging host (uploadIdOf token) := by
  rw [foldlM_draw]
  unfold JobStore.stageCapture
  cases boundedChunks maxBytes 0 chunks <;> rfl

theorem endStaging_ne_captureTooLarge (host : Host) (store : JobStore) (uploadId : Identifier)
    (staging : Staging) (maxBytes : Nat) :
    store.endStaging host uploadId staging ≠ .error (.captureTooLarge maxBytes) := by
  unfold JobStore.endStaging
  by_cases hempty : staging.size = 0
  · simp [hempty]
  · simp [hempty]

/-- Two ways to cut a capture are staged alike. -/
theorem stageCapture_congr {chunks chunks' : List (List UInt8)}
    (h : chunks.flatten = chunks'.flatten) (maxBytes : Nat) :
    store.stageCapture host token maxBytes chunks =
      store.stageCapture host token maxBytes chunks' := by
  rw [stageCapture_eq_draw, stageCapture_eq_draw, (blind_draw maxBytes).foldlM_congr h]

/-- Only the length of a capture makes it too large, once its file is created. -/
theorem stageCapture_too_large_iff {maxBytes : Nat} {chunks : List (List UInt8)} :
    store.stageCapture host token maxBytes chunks = .error (.captureTooLarge maxBytes) ↔
      store.quarantine.lookup (uploadIdOf token) = none ∧ maxBytes < chunks.flatten.length := by
  rw [stageCapture_eq_draw, (blind_draw maxBytes).foldlM_eq]
  by_cases htaken : (store.quarantine.lookup (uploadIdOf token)).isSome = true
  · rw [if_pos htaken]
    have hused : store.quarantine.lookup (uploadIdOf token) ≠ none :=
      Option.isSome_iff_ne_none.mp htaken
    simp [hused]
  have hunused : store.quarantine.lookup (uploadIdOf token) = none :=
    Option.not_isSome_iff_eq_none.mp htaken
  rw [if_neg htaken, and_iff_right hunused]
  by_cases hempty : chunks.flatten = []
  · rw [hempty, Drawing.draw_nil]
    exact iff_of_false (endStaging_ne_captureTooLarge host store (uploadIdOf token) {} maxBytes)
      (Nat.not_lt_zero maxBytes)
  rw [Drawing.draw_of_ne_nil hempty, Nat.zero_add]
  by_cases hlong : maxBytes < chunks.flatten.length
  · rw [if_pos hlong]
    exact iff_of_true rfl hlong
  · rw [if_neg hlong]
    exact iff_of_false (endStaging_ne_captureTooLarge host store _ _ _) hlong

theorem stage_congr (request : CaptureIntakeRequest) {chunks chunks' : List (List UInt8)}
    (h : chunks.flatten = chunks'.flatten) :
    stage host store { request with chunks := chunks } token =
      stage host store { request with chunks := chunks' } token := by
  unfold stage
  simp only [stageCapture_congr h request.maxCaptureBytes]

/-- The job of a request has nothing of the chunks. -/
theorem newJob_congr (request : CaptureIntakeRequest) (chunks chunks' : List (List UInt8))
    (upload : StagedCapture) (now : Int) :
    newJob { request with chunks := chunks } upload token now =
      newJob { request with chunks := chunks' } upload token now := by
  unfold newJob
  rfl

/-- **An intake does not see how the capture is cut.** Its two requests differ in the chunks alone,
and the text of their chunks is one. -/
theorem intake_ignores_chunking {chunks chunks' : List (List UInt8)}
    (h : chunks.flatten = chunks'.flatten) (maxBytes : Nat) :
    store.stageCapture host token maxBytes chunks =
        store.stageCapture host token maxBytes chunks' ∧
      (∀ (request : CaptureIntakeRequest) (progress : IntakeProgress) (action : IntakeAction),
        advance host { request with chunks := chunks } store progress action =
          advance host { request with chunks := chunks' } store progress action) ∧
      (store.stageCapture host token maxBytes chunks = .error (.captureTooLarge maxBytes) ↔
        store.quarantine.lookup (uploadIdOf token) = none ∧ maxBytes < chunks.flatten.length) := by
  refine ⟨stageCapture_congr h maxBytes, ?_, stageCapture_too_large_iff⟩
  intro request progress action
  unfold advance
  cases action with
  | stage token =>
    cases progress with
    | called =>
      dsimp only
      rw [stage_congr request h]
    | _ => rfl
  | commit token now =>
    cases progress with
    | missed upload =>
      dsimp only
      rw [newJob_congr request chunks chunks']
    | _ => rfl
  | _ => cases progress <;> rfl

/-- Six bytes, cut in the middle of the first four and with empty chunks, or not cut. -/
theorem intake_ignores_chunking_of_pcapng :
    JobStore.stageCapture uploadHost {} tokenA 6 [[0x0a], [], [0x0d, 0x0d], [0x0a, 0x01, 0x02], []] =
        JobStore.stageCapture uploadHost {} tokenA 6 [[0x0a, 0x0d, 0x0d, 0x0a, 0x01, 0x02]] ∧
      ∀ (progress : IntakeProgress) (action : IntakeAction),
        advance uploadHost { pcapngUpload with
            chunks := [[0x0a], [], [0x0d, 0x0d], [0x0a, 0x01, 0x02], []] } {} progress action =
          advance uploadHost { pcapngUpload with
            chunks := [[0x0a, 0x0d, 0x0d, 0x0a, 0x01, 0x02]] } {} progress action := by
  have h := @intake_ignores_chunking uploadHost {} tokenA
    [[0x0a], [], [0x0d, 0x0d], [0x0a, 0x01, 0x02], []] [[0x0a, 0x0d, 0x0d, 0x0a, 0x01, 0x02]] rfl 6
  exact ⟨h.1, h.2.1 pcapngUpload⟩

end

end Jobs
end SecureMail
