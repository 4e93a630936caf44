import CommentBlocks.Proofs.StreamDelivery

/-!
# A stream that is told to stop

A flag may be set at any moment: by the caller, or by a consumer that walks away. The actors look at
it only between jobs, so one that has looked already goes on as if nothing had happened. Two things
could go wrong then. A job could be lost or counted twice between the queue, the hand of a worker
and the counters; and an actor could take on more work than the one job it was about to do.

## What is accounted for

The ledger holds whether or not a stream is told to stop. Read at the end of a run it says that each
job fed was either extracted or skipped, and that the blocks delivered are all the blocks of the
jobs extracted. `Reachable.ledger` leaves open which jobs those are; along a sequence of actions
they are the ones that `State.trail` lists (`Ledger.run`).

## What is still done

An actor is *committed* to a job when it has looked at the flags and not yet acted: the feeder to
the job it is about to send, a worker to the job it is about to extract. While a flag is set nobody
commits to anything new, and every job fed or extracted ends a commitment (`Step.committed`). So
after a flag is set at most one job is fed, and at most one per worker extracted.
-/

namespace CommentBlocks

namespace Stream

variable {plan : Plan} {state next final : State} {action : Action} {actions : List Action}
  {jobs : List Job} {worked skipped : Multiset Job}

@[simp] theorem receive_feeder (block : ExtractedBlock) :
    (state.receive block).feeder = state.feeder := by
  unfold State.receive
  split <;> rfl

@[simp] theorem receive_fed (block : ExtractedBlock) :
    (state.receive block).fed = state.fed := by
  unfold State.receive
  split <;> rfl

@[simp] theorem receive_stopping (block : ExtractedBlock) :
    (state.receive block).stopping = state.stopping := by
  unfold State.receive
  split <;> rfl

/-! ## Commitments -/

/-- The jobs a feeder has committed itself to send. -/
def Feeder.committed : Feeder → Nat
  | sending _ _ => 1
  | checking _ | done => 0

/-- The jobs a worker has committed itself to extract. -/
def Worker.committed : Worker → Nat
  | working _ => 1
  | receiving | checking _ | reporting _ _ | delivering _ | done => 0

theorem committed_followUp (outcome : Outcome) : (State.followUp outcome).committed = 0 := by
  unfold State.followUp
  split <;> rfl

theorem Feeder.committed_le_one (feeder : Feeder) : feeder.committed ≤ 1 := by
  cases feeder <;> simp [committed]

theorem total_committed_le (workers : List Worker) :
    total Worker.committed workers ≤ workers.length := by
  induction workers with
  | nil => exact Nat.le_refl 0
  | cons worker workers ih =>
    have hworker : worker.committed ≤ 1 := by cases worker <;> simp [Worker.committed]
    rw [total_cons, List.length_cons]
    omega

theorem fedJob?_of_feeder_eq (hfeeder : next.feeder = state.feeder) :
    state.fedJob? action next = none := by
  rw [State.fedJob?, hfeeder]
  cases state.feeder <;> rfl

/-- What a step can mean for the feeder: that it sends the job it had committed itself to, or that
it sends nothing. While a flag is set it does not commit itself. -/
theorem Step.feeder_cases (hstep : Step plan state action next) :
    (next.fed = state.fed ∧ state.fedJob? action next = none
        ∧ (state.stopping = true → next.feeder.committed ≤ state.feeder.committed))
      ∨ ∃ job rest, state.feeder = .sending job rest ∧ next.feeder = .checking rest
        ∧ next.fed = state.fed + 1 := by
  cases hstep with
  | feederEnds hfeeder | feederStops hfeeder | feederFails hfeeder =>
    exact Or.inl ⟨rfl, by simp [State.fedJob?, hfeeder], fun _ ↦ Nat.zero_le _⟩
  | feederPicks hfeeder hgo =>
    refine Or.inl ⟨rfl, by simp [State.fedJob?, hfeeder], fun hstop ↦ ?_⟩
    exact absurd hstop (Bool.eq_false_iff.mp hgo)
  | feederPuts hfeeder => exact Or.inr ⟨_, _, hfeeder, rfl, rfl⟩
  | takesHanded _ _ hfeeder => exact Or.inr ⟨_, _, hfeeder, rfl, rfl⟩
  | hands | receives =>
    exact Or.inl ⟨receive_fed _, fedJob?_of_feeder_eq (receive_feeder _),
      fun _ ↦ Nat.le_of_eq (congrArg Feeder.committed (receive_feeder _))⟩
  | takesJob | workerEnds | skips | begins | extracts | reports | finishes | workerFails | puts
  | leaves | consumerEnds | cancels =>
    exact Or.inl ⟨rfl, fedJob?_of_feeder_eq rfl, fun _ ↦ Nat.le_refl _⟩

/-- What a step can mean for the workers: nothing, or that one of them goes on. While a flag is set
it does not commit itself, and it extracts only what it had committed itself to. -/
theorem Step.workers_cases (hstep : Step plan state action next) :
    (next.workers = state.workers ∧ state.workedJob? action next = none)
      ∨ ∃ index before after, state.workers[index]? = some before
        ∧ next.workers = state.workers.set index after
        ∧ (state.stopping = true →
          (state.workedJob? action next).toList.length + after.committed ≤ before.committed) := by
  cases hstep with
  | feederEnds | feederStops | feederPicks | feederFails | feederPuts | leaves | consumerEnds
  | cancels => exact Or.inl ⟨rfl, rfl⟩
  | receives => exact Or.inl ⟨receive_workers _, rfl⟩
  | takesJob hworker | takesHanded hworker | workerEnds hworker | skips hworker | reports hworker
  | finishes hworker | workerFails hworker | puts hworker =>
    refine Or.inr ⟨_, _, _, hworker, rfl, fun _ ↦ ?_⟩
    simp [State.workedJob?, hworker, Worker.committed]
  | begins hworker hgo =>
    refine Or.inr ⟨_, _, _, hworker, rfl, fun hstop ↦ ?_⟩
    exact absurd hstop (Bool.eq_false_iff.mp hgo)
  | extracts hworker =>
    refine Or.inr ⟨_, _, _, hworker, rfl, fun _ ↦ ?_⟩
    rw [committed_followUp]
    simp [State.workedJob?, hworker, Worker.committed]
  | hands hworker =>
    refine Or.inr ⟨_, _, _, hworker, congrArg (List.set · _ _) (receive_workers _), fun _ ↦ ?_⟩
    simp [State.workedJob?, hworker, Worker.committed]

theorem Step.length_workers (hstep : Step plan state action next) :
    next.workers.length = state.workers.length := by
  rcases hstep.workers_cases with ⟨hworkers, -⟩ | ⟨index, before, after, -, hworkers, -⟩
  · rw [hworkers]
  · rw [hworkers, List.length_set]

theorem Step.stopping (hstep : Step plan state action next) (hstop : state.stopping = true) :
    next.stopping = true := by
  cases hstep with
  | hands | receives => exact (receive_stopping _).trans hstop
  | leaves =>
    rw [State.leave, State.stopping, ← Bool.or_assoc]
    exact Bool.or_eq_true_iff.mpr (Or.inl hstop)
  | cancels => rfl
  | feederEnds | feederStops | feederPicks | feederFails | feederPuts | takesJob | takesHanded
  | workerEnds | skips | begins | extracts | reports | finishes | workerFails | puts
  | consumerEnds => exact hstop

/-- **While a flag is set a job is fed or extracted only at the cost of a commitment**, and there
are no new ones. -/
theorem Step.committed (hstep : Step plan state action next) (hstop : state.stopping = true) :
    (state.fedJob? action next).toList.length + next.feeder.committed ≤ state.feeder.committed
      ∧ (state.workedJob? action next).toList.length + total Worker.committed next.workers
        ≤ total Worker.committed state.workers := by
  constructor
  · rcases hstep.feeder_cases with ⟨-, hnone, hcommitted⟩ | ⟨job, rest, hbefore, hfeeder, -⟩
    · rw [hnone, Option.toList_none, List.length_nil, Nat.zero_add]
      exact hcommitted hstop
    · simp [State.fedJob?, hbefore, hfeeder, Feeder.committed]
  · rcases hstep.workers_cases with ⟨hworkers, hnone⟩ |
      ⟨index, before, after, hworker, hworkers, hcommitted⟩
    · rw [hworkers, hnone]
      exact Nat.le_of_eq (Nat.zero_add _)
    · have hset := total_set Worker.committed after hworker
      have hless := hcommitted hstop
      rw [hworkers]
      omega

/-! ## Runs -/

theorem Ledger.take_fed (h : Ledger plan jobs worked skipped state)
    (hstep : Step plan state action next) :
    jobs.take next.fed = jobs.take state.fed ++ (state.fedJob? action next).toList := by
  rcases hstep.feeder_cases with ⟨hfed, hnone, -⟩ | ⟨job, rest, hbefore, hfeeder, hfed⟩
  · rw [hfed, hnone, Option.toList_none, List.append_nil]
  · have hdrop := h.drop_eq (by simp [hbefore])
    rw [hbefore, Feeder.left] at hdrop
    have hsome : state.fedJob? action next = some job := by
      simp [State.fedJob?, hbefore, hfeeder]
    rw [hfed, hsome, List.take_add, hdrop, List.take_succ_cons, List.take_zero,
      Option.toList_some]

theorem exists_step_of_foldlM_cons
    (hrun : (action :: actions).foldlM (State.act plan) state = some final) :
    ∃ next, state.act plan action = some next ∧ Step plan state action next
      ∧ actions.foldlM (State.act plan) next = some final := by
  rw [List.foldlM_cons, Option.bind_eq_bind, Option.bind_eq_some_iff] at hrun
  obtain ⟨next, hact, hrest⟩ := hrun
  exact ⟨next, hact, State.step_of_act hact, hrest⟩

theorem length_workers_of_run (hrun : actions.foldlM (State.act plan) state = some final) :
    final.workers.length = state.workers.length := by
  induction actions generalizing state with
  | nil =>
    rw [List.foldlM_nil, Option.pure_def, Option.some.injEq] at hrun
    rw [hrun]
  | cons action actions ih =>
    obtain ⟨next, -, hstep, hrest⟩ := exists_step_of_foldlM_cons hrun
    rw [ih hrest, hstep.length_workers]

/-- **A run enters in the ledger the jobs that its trail lists.** -/
theorem Ledger.run (horderly : Orderly plan state) (h : Ledger plan jobs worked skipped state)
    (hrun : actions.foldlM (State.act plan) state = some final) :
    Orderly plan final
      ∧ Ledger plan jobs (state.trail plan State.workedJob? actions + worked)
        (state.trail plan State.skippedJob? actions + skipped) final
      ∧ jobs.take final.fed = jobs.take state.fed ++ state.trail plan State.fedJob? actions := by
  induction actions generalizing state worked skipped with
  | nil =>
    rw [List.foldlM_nil, Option.pure_def, Option.some.injEq] at hrun
    subst hrun
    simpa [State.trail] using ⟨horderly, h⟩
  | cons action actions ih =>
    obtain ⟨next, hact, hstep, hrest⟩ := exists_step_of_foldlM_cons hrun
    obtain ⟨horderly', hledger, hfed⟩ := ih (horderly.step hstep) (h.step horderly hstep) hrest
    rw [State.trail_cons hact, State.trail_cons hact, State.trail_cons hact]
    refine ⟨horderly', ?_, ?_⟩
    · -- what the first step enters comes before what the rest of the run enters
      simpa only [← Multiset.coe_add, add_assoc, add_left_comm] using hledger
    · rw [hfed, h.take_fed hstep, List.append_assoc]

/-- **After a flag is set a run feeds and extracts no more than was committed to.** -/
theorem length_trail_le_committed (hrun : actions.foldlM (State.act plan) state = some final)
    (hstop : state.stopping = true) :
    (state.trail plan State.fedJob? actions).length ≤ state.feeder.committed
      ∧ (state.trail plan State.workedJob? actions).length
        ≤ total Worker.committed state.workers := by
  induction actions generalizing state with
  | nil => exact ⟨Nat.zero_le _, Nat.zero_le _⟩
  | cons action actions ih =>
    obtain ⟨next, hact, hstep, hrest⟩ := exists_step_of_foldlM_cons hrun
    obtain ⟨hfed, hworked⟩ := ih hrest (hstep.stopping hstop)
    obtain ⟨hfeeder, hworkers⟩ := hstep.committed hstop
    rw [State.trail_cons hact, State.trail_cons hact, List.length_append, List.length_append]
    exact ⟨by omega, by omega⟩

/-! ## Where a stopped run ends -/

theorem filesScanned_add_filesFailed (outcomes : Multiset Outcome) (skipped emitted : Nat) :
    (tally outcomes skipped emitted).filesScanned + (tally outcomes skipped emitted).filesFailed
      = outcomes.card := by
  induction outcomes using Multiset.induction with
  | empty => rfl
  | cons outcome outcomes ih =>
    rw [← count_tally, Multiset.card_cons, ← ih]
    cases outcome with
    | error error => exact (Nat.add_assoc _ _ 1).symm
    | ok scan => exact Nat.add_right_comm _ 1 _

/-- **A stream that is told to stop loses nothing and stops soon.** For every plan, every number of
workers and every sequence of actions, with a flag set at any moment or never. At the end of a run
the jobs fed are a front part of the jobs given, each of them was extracted or skipped, the counters
count them, and the blocks delivered interleave all the blocks of exactly the jobs scanned. And from
any moment on at which a flag is set, at most one more job is fed and at most one per worker
extracted. -/
theorem stop_is_accounted_for (plan : Plan) (jobs : List Job) {workers : Nat}
    (hworkers : 0 < workers) (wanted : Option Nat) (cancelled : Bool) {actions : List Action}
    {final : State}
    (hrun : actions.foldlM (State.act plan) (.start jobs workers wanted cancelled) = some final) :
    let start := State.start jobs workers wanted cancelled
    let fed := start.trail plan State.fedJob? actions
    let worked := start.trail plan State.workedJob? actions
    let skipped := start.trail plan State.skippedJob? actions
    (final.workersDone = true → final.blockQueue = [] →
      fed <+: jobs
        ∧ fed.Perm (worked ++ skipped)
        ∧ final.stats.filesScanned + final.stats.filesFailed + final.stats.filesSkipped = fed.length
        ∧ final.stats.filesScanned
          = (worked.map plan.extract).countP (fun outcome ↦ outcome.toOption.isSome)
        ∧ final.stats.filesFailed
          = (worked.map plan.extract).countP (fun outcome ↦ outcome.toOption.isNone)
        ∧ final.stats.filesSkipped = skipped.length
        ∧ Interleaving (blockLists (worked.map plan.extract)) final.delivered)
    ∧ ∀ before after middle, actions = before ++ after →
        before.foldlM (State.act plan) start = some middle → middle.stopping = true →
        (middle.trail plan State.fedJob? after).length ≤ 1
          ∧ (middle.trail plan State.workedJob? after).length ≤ workers := by
  intro start fed worked skipped
  obtain ⟨horderly, hledger, hfed⟩ := ledger_start.run (orderly_start hworkers) hrun
  rw [add_zero, add_zero] at hledger
  constructor
  · intro hdone hqueue
    have hfront : fed = jobs.take final.fed := hfed.symm
    have hperm : fed.Perm (worked ++ skipped) := by
      rw [hfront]
      exact Multiset.coe_eq_coe.mp (hledger.accounted_of_done horderly hdone)
    have hcounted := hledger.counted
    have hsum := filesScanned_add_filesFailed ((worked : Multiset Job).map plan.extract)
      (skipped : Multiset Job).card (final.delivered ++ final.blockQueue).length
    rw [← hcounted, Multiset.card_map, Multiset.coe_card] at hsum
    rw [Multiset.map_coe, Multiset.coe_card, tally_coe] at hcounted
    refine ⟨?_, hperm, ?_, ?_, ?_, ?_, hledger.drawn_of_done hdone hqueue⟩
    · rw [hfront]
      exact List.take_prefix _ _
    · rw [hsum, hperm.length_eq, List.length_append, hcounted]
    · rw [hcounted]
    · rw [hcounted]
    · rw [hcounted]
  · rintro before after middle rfl hmiddle hstop
    rw [List.foldlM_append, hmiddle] at hrun
    obtain ⟨hfed, hworked⟩ := length_trail_le_committed hrun hstop
    refine ⟨hfed.trans middle.feeder.committed_le_one, hworked.trans ?_⟩
    have hlength : middle.workers.length = workers :=
      (length_workers_of_run hmiddle).trans List.length_replicate
    exact hlength ▸ total_committed_le middle.workers

/-- Three jobs, one worker and room for one job. When the caller cancels, the worker is about to
extract the first job and the feeder about to send the second: the first is still scanned and
delivered, the second is fed and then skipped, and the third is never fed. -/
theorem stop_is_accounted_for_three_jobs :
    let plan : Plan := ⟨fun job ↦ .ok ⟨job.origin, [⟨job.origin, 1, ['x']⟩], none⟩, 1, 0, false⟩
    let job (name : String) : Job := ⟨⟨name⟩, [], none, none⟩
    let start := State.start [job "a", job "b", job "c"] 1 none false
    let before : List Action := [.feed, .feed, .work 0, .work 0, .feed, .cancel]
    let after : List Action :=
      [.feed, .feed, .work 0, .work 0, .work 0, .work 0, .work 0, .work 0]
    ∃ middle final, before.foldlM (State.act plan) start = some middle
      ∧ middle.stopping = true
      ∧ (before ++ after).foldlM (State.act plan) start = some final
      ∧ final.workersDone = true ∧ final.blockQueue = []
      ∧ final.stats = ⟨1, 0, 1, 1, 0⟩
      ∧ [job "a", job "b"] <+: [job "a", job "b", job "c"]
      ∧ Interleaving [[⟨⟨"a"⟩, 1, ['x']⟩]] final.delivered
      ∧ (middle.trail plan State.fedJob? after).length ≤ 1
      ∧ (middle.trail plan State.workedJob? after).length ≤ 1 := by
  intro plan job start before after
  let middle : State :=
    { feeder := .sending (job "b") [job "c"], workers := [.working (job "a")]
      consumer := .taking none, cancelled := true, fed := 1 }
  let final : State :=
    { feeder := .done, workers := [.done], consumer := .taking none, cancelled := true, fed := 2
      stats := ⟨1, 0, 1, 1, 0⟩, taken := [⟨⟨"a"⟩, 1, ['x']⟩] }
  have hmiddle : before.foldlM (State.act plan) start = some middle := rfl
  have hfinal : (before ++ after).foldlM (State.act plan) start = some final := rfl
  have hfed : start.trail plan State.fedJob? (before ++ after) = [job "a", job "b"] := rfl
  have hworked : start.trail plan State.workedJob? (before ++ after) = [job "a"] := rfl
  obtain ⟨haccounted, hbound⟩ := stop_is_accounted_for plan _ Nat.one_pos none false hfinal
  obtain ⟨hfront, -, -, -, -, -, hblocks⟩ := haccounted rfl rfl
  rw [hfed] at hfront
  rw [hworked] at hblocks
  exact ⟨middle, final, hmiddle, rfl, hfinal, rfl, rfl, rfl, hfront, hblocks,
    hbound before after middle rfl hmiddle rfl⟩

end Stream

end CommentBlocks
