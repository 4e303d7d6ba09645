import SecureMail.Jobs.Lifecycle

/-!
# The order of intake

`status.json` has the time of an intake cut to the second, and `claim_next` goes by that time and then
by the run's random name. So it takes the jobs in the order of their intake exactly as far as the
names of those that were taken in within one second happen to be in that order.

What the law speaks of is not in the store: the time of an intake, in microseconds, is what the
caller was told, and the record has lost its end. So the intakes are read off the trace, and
`Remembered` says what the store still knows of them. The order of the store refines that of the
cut times; between two jobs of one second it goes by a token that was drawn at random, and the
condition on a step is about that token, before the job waits.
-/

namespace SecureMail
namespace Jobs

open Transition

/-- `created_at` and then the name. -/
theorem creationOrder_eq_lt_iff {a b : CaptureJob} : JobStore.creationOrder a b = .lt ↔
    a.createdAt < b.createdAt ∨ a.createdAt = b.createdAt ∧ a.runId.text < b.runId.text := by
  unfold JobStore.creationOrder compareLex compareOn
  rw [Ordering.then_eq_lt, compare_lt_iff_lt, compare_eq_iff_eq]
  exact or_congr_right (and_congr_right fun _ => compareOfLessAndEq_eq_lt)

theorem CaptureJob.createdAt_serialized_le {a b : CaptureJob} (h : a.createdAt < b.createdAt) :
    a.serialized.createdAt ≤ b.serialized.createdAt := by
  show a.createdAt - a.createdAt % 1000000 ≤ b.createdAt - b.createdAt % 1000000
  omega

/-- The run is in the queue and nobody has asked to cancel it. These are the jobs among which
`claim_next` chooses. -/
def DataRoot.Waiting (root : DataRoot) (runId : String) : Prop :=
  ∃ job ∈ root.claimable, job.runId.text = runId

section

variable {ι : Type*} [DecidableEq ι] {host : Host} {requests : ι → CaptureIntakeRequest}
  {q q' : Queue ι}

/-- The jobs that were taken in, with the times of their intake, in order. -/
def accepted (trace : List (QueueAction ι × DataRoot)) : List CaptureJob :=
  trace.filterMap (·.1.accepted?)

/-- A new job has a greater name than every waiting job of the same second. Only the jobs that wait
count: one that has been claimed since is not compared with any more. -/
def InTurn (q : Queue ι) (a : QueueAction ι) : Bool :=
  a.accepted?.all fun job => q.root.claimable.all fun other =>
    other.createdAt ≠ job.serialized.createdAt || other.runId.text < job.runId.text

def TurnStep (host : Host) (requests : ι → CaptureIntakeRequest) (q : Queue ι)
    (seen : QueueAction ι × DataRoot) (q' : Queue ι) : Prop :=
  SeenStep host requests q seen q' ∧ InTurn q seen.1 = true

/-- The next claim is of the waiting job with the earliest intake. -/
def ClaimsEarliest (trace : List (QueueAction ι × DataRoot)) (root : DataRoot) : Prop :=
  ∃ claimed root', exec claimNext root = (.ok claimed, root') ∧
    (claimed = none ↔ root.claimable = []) ∧
    ∀ job, claimed = some job → ∃ intake ∈ accepted trace, intake.runId = job.runId ∧
      ∀ other ∈ accepted trace, root.Waiting other.runId.text → other ≠ intake →
        intake.createdAt < other.createdAt

/-- What the store keeps of the intakes, and that it keeps their order. -/
structure Remembered (trace : List (QueueAction ι × DataRoot)) (root : DataRoot) : Prop where
  names : ((accepted trace).map (·.runId.text)).Nodup
  there : ∀ job ∈ accepted trace, root.getJob job.runId.text ≠ none
  stored : ∀ name job, root.getJob name = some job →
    ∃ intake ∈ accepted trace, intake.runId = job.runId ∧ job.createdAt = intake.serialized.createdAt
  ordered : ∀ a ∈ accepted trace, ∀ b ∈ accepted trace, a.createdAt < b.createdAt →
    root.Waiting a.runId.text → root.Waiting b.runId.text →
    JobStore.creationOrder a.serialized b.serialized = .lt

omit [DecidableEq ι] in
theorem accepted_append (trace : List (QueueAction ι × DataRoot))
    (seen : QueueAction ι × DataRoot) :
    accepted (trace ++ [seen]) = accepted trace ++ seen.1.accepted?.toList := by
  rw [accepted, List.filterMap_append, ← accepted]
  cases h : seen.1.accepted? with
  | none => simp [h]
  | some job => simp [h]

theorem waiting_iff {root : DataRoot} (hroot : root.WellFormed) {runId : String} :
    root.Waiting runId ↔ root.statusOf runId = some .queued := by
  constructor
  · rintro ⟨job, hjob, rfl⟩
    obtain ⟨hget, hqueued⟩ := getJob_of_mem_claimable hroot hjob
    rw [DataRoot.statusOf, hget, Option.map_some, hqueued]
  · intro hstatus
    obtain ⟨job, hjob, hqueued⟩ := Option.map_eq_some_iff.mp hstatus
    obtain ⟨hlisted, hname⟩ := hroot.getJob_iff.mp hjob
    refine ⟨job, List.mem_filter.mpr ⟨hlisted, ?_⟩, hname⟩
    exact CaptureJob.claimable_iff.mpr ⟨hqueued, hroot.unmarked_of_getJob hjob hqueued⟩

/-- Nothing comes back into the queue. -/
theorem Evolves.queued {root root' : DataRoot} (h : Evolves Moves root root') {runId : String}
    (hqueued : root'.statusOf runId = some .queued) : root.statusOf runId = some .queued := by
  cases hstatus : root.statusOf runId with
  | none =>
    rw [h.statusOf_none hstatus] at hqueued
    cases hqueued
  | some status =>
    obtain ⟨status', hstatus', hmoved⟩ := h.statusOf hstatus
    obtain rfl := Option.some.inj (hstatus'.symm.trans hqueued)
    by_contra hne
    exact hmoved.ne_queued (fun heq => hne (congrArg some heq)) rfl

omit [DecidableEq ι] in
theorem Remembered.moved {trace : List (QueueAction ι × DataRoot)} {root root' : DataRoot}
    (h : Remembered trace root) (hroot : root.WellFormed) (hroot' : root'.WellFormed)
    (hevolves : Evolves Moves root root') : Remembered trace root' := by
  have hwaiting : ∀ runId, root'.Waiting runId → root.Waiting runId := by
    intro runId hwaits
    rw [waiting_iff hroot]
    exact hevolves.queued ((waiting_iff hroot').mp hwaits)
  refine ⟨h.names, ?_, ?_, ?_⟩
  · intro job hjob hnone
    obtain ⟨stored, hstored⟩ := Option.ne_none_iff_exists'.mp (h.there job hjob)
    obtain ⟨record, hrecord, -⟩ := hevolves.present _ _ hstored
    rw [hnone] at hrecord
    cases hrecord
  · intro name job hjob
    cases hold : root.getJob name with
    | none =>
      rw [hevolves.absent name hold] at hjob
      cases hjob
    | some old =>
      obtain ⟨record, hrecord, -⟩ := hevolves.present name old hold
      obtain rfl := Option.some.inj (hrecord.symm.trans hjob)
      exact h.stored name old hold
  · intro a ha b hb hlt hwaits hwaits'
    exact h.ordered a ha b hb hlt (hwaiting _ hwaits) (hwaiting _ hwaits')

omit [DecidableEq ι] in
theorem Remembered.takenIn {trace : List (QueueAction ι × DataRoot)}
    {seen : QueueAction ι × DataRoot} {root root' : DataRoot} {job : CaptureJob}
    (h : Remembered trace root) (hroot : root.WellFormed) (hroot' : root'.WellFormed)
    (hjob : seen.1.accepted? = some job) (haccepts : Accepts root job root')
    (hlater : ∀ a ∈ accepted trace, a.createdAt < job.createdAt)
    (hturn : ∀ other ∈ root.claimable, other.createdAt = job.serialized.createdAt →
      other.runId.text < job.runId.text) :
    Remembered (trace ++ [seen]) root' := by
  have hall : accepted (trace ++ [seen]) = accepted trace ++ [job] := by
    rw [accepted_append, hjob, Option.toList_some]
  have hne : ∀ a ∈ accepted trace, a.runId.text ≠ job.runId.text := by
    intro a ha heq
    apply h.there a ha
    rw [heq]
    exact haccepts.fresh
  have hget : ∀ a ∈ accepted trace, root'.getJob a.runId.text = root.getJob a.runId.text := by
    intro a ha
    rw [haccepts.getJob, if_neg (hne a ha)]
  have hwaiting : ∀ a ∈ accepted trace, root'.Waiting a.runId.text →
      root.Waiting a.runId.text := by
    intro a ha hwaits
    rw [waiting_iff hroot'] at hwaits
    rw [DataRoot.statusOf, hget a ha] at hwaits
    rw [waiting_iff hroot]
    exact hwaits
  refine ⟨?_, ?_, ?_, ?_⟩
  · rw [hall, List.map_append, List.nodup_append]
    refine ⟨h.names, List.nodup_singleton _, ?_⟩
    intro name hname new hnew heq
    obtain ⟨a, ha, rfl⟩ := List.mem_map.mp hname
    obtain rfl := List.mem_singleton.mp hnew
    exact hne a ha heq
  · intro a ha
    rw [hall, List.mem_append, List.mem_singleton] at ha
    rcases ha with ha | rfl
    · rw [hget a ha]
      exact h.there a ha
    · rw [haccepts.getJob, if_pos rfl]
      simp
  · intro name stored hstored
    rw [haccepts.getJob] at hstored
    rw [hall]
    by_cases hname : name = job.runId.text
    · rw [if_pos hname] at hstored
      obtain rfl := Option.some.inj hstored
      exact ⟨job, List.mem_append_right _ List.mem_cons_self, rfl, rfl⟩
    · rw [if_neg hname] at hstored
      obtain ⟨intake, hintake, hsame⟩ := h.stored name stored hstored
      exact ⟨intake, List.mem_append_left _ hintake, hsame⟩
  · intro a ha b hb hlt hwaits hwaits'
    rw [hall, List.mem_append, List.mem_singleton] at ha hb
    rcases ha with ha | rfl
    · rcases hb with hb | rfl
      · exact h.ordered a ha b hb hlt (hwaiting a ha hwaits) (hwaiting b hb hwaits')
      · -- The new job is of a later second, or of the same and then has the greater name.
        rw [creationOrder_eq_lt_iff]
        rcases (CaptureJob.createdAt_serialized_le hlt).lt_or_eq with hless | heq
        · exact Or.inl hless
        · right
          refine ⟨heq, ?_⟩
          obtain ⟨stored, hstored, hname⟩ := hwaiting a ha hwaits
          obtain ⟨intake, hintake, hsame, hcreated⟩ :=
            h.stored _ stored (getJob_of_mem_claimable hroot hstored).1
          obtain rfl : intake = a := by
            refine List.inj_on_of_nodup_map h.names hintake ha ?_
            rw [hsame, hname]
          show intake.runId.text < b.runId.text
          rw [← hname]
          exact hturn stored hstored (hcreated.trans heq)
    · rcases hb with hb | rfl
      · exact absurd hlt (Int.not_lt.mpr (Int.le_of_lt (hlater b hb)))
      · exact absurd hlt (Int.lt_irrefl _)

theorem TurnStep.remembered {trace : List (QueueAction ι × DataRoot)}
    {seen : QueueAction ι × DataRoot} (h : TurnStep host requests q seen q') (hq : q.Consistent)
    (hincreasing : ((accepted (trace ++ [seen])).map (·.createdAt)).Pairwise (· < ·))
    (hremembered : Remembered trace q.root) : Remembered (trace ++ [seen]) q'.root := by
  obtain ⟨⟨hstep, -⟩, hturn⟩ := h
  obtain ⟨hq', hchanges⟩ := hstep.effect hq
  cases hjob : seen.1.accepted? with
  | none =>
    rw [hjob] at hchanges
    cases hchanges with
    | moved hevolves =>
      have hmoved := hremembered.moved hq.wellFormed hq'.wellFormed hevolves
      have hsame : accepted (trace ++ [seen]) = accepted trace := by
        rw [accepted_append, hjob, Option.toList_none, List.append_nil]
      obtain ⟨hnames, hthere, hstored, hordered⟩ := hmoved
      exact ⟨by rw [hsame]; exact hnames, by rw [hsame]; exact hthere, by rw [hsame]; exact hstored,
        by rw [hsame]; exact hordered⟩
  | some job =>
    rw [hjob] at hchanges
    cases hchanges with
    | accepted haccepts =>
      refine hremembered.takenIn hq.wellFormed hq'.wellFormed hjob haccepts ?_ ?_
      · intro a ha
        rw [accepted_append, hjob, Option.toList_some, List.map_append, List.pairwise_append]
          at hincreasing
        exact hincreasing.2.2 _ (List.mem_map.mpr ⟨a, ha, rfl⟩) _ List.mem_cons_self
      · intro other hother heq
        rw [InTurn, hjob, Option.all_some, List.all_eq_true] at hturn
        simpa [heq] using hturn other hother

omit [DecidableEq ι] in
/-- What is remembered makes the least job the earliest. -/
theorem Remembered.claimsEarliest {trace : List (QueueAction ι × DataRoot)} {root : DataRoot}
    (h : Remembered trace root) (hroot : root.WellFormed)
    (hincreasing : ((accepted trace).map (·.createdAt)).Pairwise (· < ·)) :
    ClaimsEarliest trace root := by
  obtain ⟨claimed, root', hexec, hnone, hleast⟩ := claimsLeast hroot
  refine ⟨claimed, root', hexec, hnone, ?_⟩
  intro job hjob
  obtain ⟨stored, hstored, rfl, hfirst⟩ := hleast job hjob
  obtain ⟨intake, hintake, hsame, hcreated⟩ :=
    h.stored _ stored (getJob_of_mem_claimable hroot hstored).1
  refine ⟨intake, hintake, hsame, ?_⟩
  intro other hother hwaits hne
  obtain ⟨stored', hstored', hname⟩ := hwaits
  obtain ⟨intake', hintake', hsame', hcreated'⟩ :=
    h.stored _ stored' (getJob_of_mem_claimable hroot hstored').1
  obtain rfl : intake' = other := by
    refine List.inj_on_of_nodup_map h.names hintake' hother ?_
    rw [hsame', hname]
  have hbefore : JobStore.creationOrder stored stored' = .lt := by
    refine hfirst stored' hstored' ?_
    rintro rfl
    exact hne (List.inj_on_of_nodup_map h.names hother hintake (by rw [hsame', hsame]))
  by_contra hnot
  have hdistinct : intake'.createdAt ≠ intake.createdAt := by
    intro heq
    have hnodup : ((accepted trace).map (·.createdAt)).Nodup :=
      hincreasing.imp fun hlt => Int.ne_of_lt hlt
    exact hne (List.inj_on_of_nodup_map hnodup hother hintake heq)
  have hless : intake'.createdAt < intake.createdAt := by omega
  have hafter := h.ordered intake' hother intake hintake hless ⟨stored', hstored', hsame' ▸ rfl⟩
    ⟨stored, hstored, hsame ▸ rfl⟩
  rw [creationOrder_eq_lt_iff] at hbefore hafter
  rw [← hcreated, ← hcreated'] at hafter
  have hname' : intake'.serialized.runId.text = stored'.runId.text := congrArg Identifier.text hsame'
  have hname'' : intake.serialized.runId.text = stored.runId.text := congrArg Identifier.text hsame
  rw [hname', hname''] at hafter
  rcases hbefore with hlt | ⟨heq, hlt⟩
  · rcases hafter with hlt' | ⟨heq', -⟩
    · omega
    · omega
  · rcases hafter with hlt' | ⟨-, hlt'⟩
    · omega
    · exact absurd hlt' (String.lt_asymm hlt)

/-- **With intake times that increase, and every new job of a greater name than those that wait since
the same second, `claim_next` always takes the job with the earliest intake.** -/
theorem earliest_intake_first {store : JobStore} {trace : List (QueueAction ι × DataRoot)}
    (h : Run (TurnStep host requests) (Queue.opened store) trace q)
    (hincreasing : ((accepted trace).map (·.createdAt)).Pairwise (· < ·)) :
    ClaimsEarliest trace q.root := by
  have hboth : q.Consistent ∧
      (((accepted trace).map (·.createdAt)).Pairwise (· < ·) → Remembered trace q.root) := by
    refine h.trace_invariant (I := fun trace q => q.Consistent ∧
      (((accepted trace).map (·.createdAt)).Pairwise (· < ·) → Remembered trace q.root)) ?_ ?_
    · rintro trace q seen q' ⟨hq, hremembered⟩ hstep
      refine ⟨hstep.1.consistent hq, ?_⟩
      intro hincreasing
      refine hstep.remembered hq hincreasing (hremembered ?_)
      rw [accepted_append, List.map_append, List.pairwise_append] at hincreasing
      exact hincreasing.1
    · refine ⟨consistent_opened store, fun _ => ⟨List.nodup_nil, ?_, ?_, ?_⟩⟩
      · intro job hjob
        exact absurd hjob List.not_mem_nil
      · intro name job hjob
        simp [DataRoot.getJob, Queue.opened] at hjob
      · intro a ha
        exact absurd ha List.not_mem_nil
  exact (hboth.2 hincreasing).claimsEarliest hboth.1.wellFormed hincreasing

end

/-! ## Two uploads within one second -/

/-- One capture for two hosts, so that there are two jobs. -/
def twoUploads (second : Bool) : CaptureIntakeRequest :=
  { pcapngUpload with expectedHostname := if second then some "mail.example.net" else none }

/-- A second upload half a second after the first; their random names are these. -/
def uploadsOf (first second : Token) : List (QueueMove Bool) :=
  [.intake false (.stage first), .intake false .search, .intake false (.commit first 1000000),
    .intake true (.stage second), .intake true .search, .intake true (.commit second 1500000)]

/-- The names and times of the intakes, the runs that wait, and the run that is claimed next. -/
def intakeSummary (result : List (QueueAction Bool × DataRoot) × Queue Bool) :
    List (String × Int) × List String × Option String :=
  ((accepted result.1).map fun job => (job.runId.text, job.createdAt),
    result.2.root.claimable.map (·.runId.text),
    ((exec claimNext result.2.root).1.toOption.join).map (·.runId.text))

theorem uploads_claimed_in_turn :
    ∃ (trace : List (QueueAction Bool × DataRoot)) (q : Queue Bool),
      Run (TurnStep uploadHost twoUploads) (Queue.opened {}) trace q ∧
        (accepted trace).map (fun job => (job.runId.text, job.createdAt)) =
          [("r1111111111111111", 1000000), ("r2222222222222222", 1500000)] ∧
        ClaimsEarliest trace q.root := by
  have hrun : (runMoves uploadHost twoUploads InTurn (uploadsOf tokenA tokenB)
      (Queue.opened {})).map (fun result => (intakeSummary result).1) =
      some [("r1111111111111111", 1000000), ("r2222222222222222", 1500000)] := by decide +kernel
  obtain ⟨⟨trace, q⟩, hmoves, hintakes⟩ := Option.map_eq_some_iff.mp hrun
  have haccepted : (accepted trace).map (fun job => (job.runId.text, job.createdAt)) =
      [("r1111111111111111", 1000000), ("r2222222222222222", 1500000)] := hintakes
  have hincreasing : ((accepted trace).map (·.createdAt)).Pairwise (· < ·) := by
    have htimes := congrArg (List.map Prod.snd) haccepted
    rw [List.map_map] at htimes
    show ((accepted trace).map (Prod.snd ∘ fun job => (job.runId.text, job.createdAt))).Pairwise _
    rw [htimes]
    decide
  exact ⟨trace, q, run_of_runMoves hmoves, haccepted,
    earliest_intake_first (run_of_runMoves hmoves) hincreasing⟩

/-- The second upload has the smaller name, and is claimed first. -/
theorem later_upload_claimed_first :
    ∃ (trace : List (QueueAction Bool × DataRoot)) (q : Queue Bool),
      Run (SeenStep uploadHost twoUploads) (Queue.opened {}) trace q ∧
        ((accepted trace).map (·.createdAt)).Pairwise (· < ·) ∧ ¬ClaimsEarliest trace q.root := by
  have hrun : (runMoves uploadHost twoUploads (fun _ _ => true) (uploadsOf tokenB tokenA)
      (Queue.opened {})).map intakeSummary =
      some ([("r2222222222222222", 1000000), ("r1111111111111111", 1500000)],
        ["r1111111111111111", "r2222222222222222"], some "r1111111111111111") := by decide +kernel
  obtain ⟨⟨trace, q⟩, hmoves, hsummary⟩ := Option.map_eq_some_iff.mp hrun
  obtain ⟨haccepted, hrest⟩ := Prod.mk.inj hsummary
  obtain ⟨hwaiting, hclaimed⟩ := Prod.mk.inj hrest
  have hsteps := (run_of_runMoves hmoves).mono fun _ _ _ hstep => hstep.1
  refine ⟨trace, q, hsteps, ?_, ?_⟩
  · have htimes := congrArg (List.map Prod.snd) haccepted
    rw [List.map_map] at htimes
    show ((accepted trace).map (Prod.snd ∘ fun job => (job.runId.text, job.createdAt))).Pairwise _
    rw [htimes]
    decide
  · rintro ⟨claimed, root', hexec, -, hearliest⟩
    have hjob : claimed.map (·.runId.text) = some "r1111111111111111" := by
      have hnext := hclaimed
      rw [hexec] at hnext
      exact hnext
    obtain ⟨job, rfl, hname⟩ := Option.map_eq_some_iff.mp hjob
    obtain ⟨intake, hintake, hsame, hbefore⟩ := hearliest job rfl
    -- The intake of the other job, which waits, was half a second before.
    have hfirst : ("r2222222222222222", (1000000 : Int)) ∈
        (accepted trace).map fun job => (job.runId.text, job.createdAt) := by
      rw [haccepted]
      exact List.mem_cons_self
    obtain ⟨other, hother, hotherName⟩ := List.mem_map.mp hfirst
    obtain ⟨hotherName, hotherTime⟩ := Prod.mk.inj hotherName
    have hintakeName : intake.runId.text = "r1111111111111111" := by rw [hsame, hname]
    have hintakeTime : intake.createdAt = 1500000 := by
      have hmem : (intake.runId.text, intake.createdAt) ∈
          (accepted trace).map fun job => (job.runId.text, job.createdAt) :=
        List.mem_map.mpr ⟨intake, hintake, rfl⟩
      rw [haccepted, hintakeName] at hmem
      simpa using hmem
    have hwaits : q.root.Waiting other.runId.text := by
      have hmem : "r2222222222222222" ∈ q.root.claimable.map (·.runId.text) := by
        rw [hwaiting]
        exact List.mem_cons_of_mem _ List.mem_cons_self
      obtain ⟨stored, hstored, hstoredName⟩ := List.mem_map.mp hmem
      exact ⟨stored, hstored, hstoredName.trans hotherName.symm⟩
    have hne : other ≠ intake := by
      rintro rfl
      rw [hintakeName] at hotherName
      exact absurd hotherName (by decide)
    have hlt := hbefore other hother hwaits hne
    rw [hotherTime, hintakeTime] at hlt
    exact absurd hlt (by decide)

end Jobs
end SecureMail
