import CommentBlocks.Stream.Run

/-!
# What a step of a stream can do

`State.act` computes the step of an actor. For reasoning it is turned around: `Step` lists all that
a step can be, each with the condition under which it is taken and the state it leads to, and
`State.step_of_act` says that the list is complete. An invariant of a stream is then proved with one
case for each kind of step, and none of those proofs looks into `act` again.

`Reachable` is the run of a stream under every schedule: any actor that can act may be next, and the
caller may cancel at any time. A run is also the sequence of its actions, and `State.trail` reads
off it, step by step, which jobs were fed, extracted and skipped.
-/

namespace CommentBlocks

namespace Stream

variable {plan : Plan} {state next : State}

/-- The steps of a stream, each with the action it is. -/
inductive Step (plan : Plan) : State → Action → State → Prop where
  /-- The feeder has no more jobs. -/
  | feederEnds {state : State} (hfeeder : state.feeder = .checking []) :
    Step plan state .feed { state with feeder := .done }
  /-- The feeder sees a flag. -/
  | feederStops {state : State} {job : Job} {jobs : List Job}
    (hfeeder : state.feeder = .checking (job :: jobs)) (hstop : state.stopping = true) :
    Step plan state .feed { state with feeder := .done }
  /-- The feeder sees no flag. -/
  | feederPicks {state : State} {job : Job} {jobs : List Job}
    (hfeeder : state.feeder = .checking (job :: jobs)) (hgo : state.stopping = false) :
    Step plan state .feed { state with feeder := .sending job jobs }
  /-- The feeder finds nobody to send to. -/
  | feederFails {state : State} {job : Job} {jobs : List Job}
    (hfeeder : state.feeder = .sending job jobs) (hworkers : state.workersDone = true) :
    Step plan state .feed { state with feeder := .done }
  /-- The feeder puts a job on the queue. -/
  | feederPuts {state : State} {job : Job} {jobs : List Job}
    (hfeeder : state.feeder = .sending job jobs)
    (hroom : state.jobQueue.length < plan.jobCapacity) :
    Step plan state .feed { state with
      feeder := .checking jobs, jobQueue := state.jobQueue ++ [job], fed := state.fed + 1 }
  /-- A worker takes a job from the queue. -/
  | takesJob {state : State} {index : Nat} {job : Job} {queue : List Job}
    (hworker : state.workers[index]? = some .receiving) (hqueue : state.jobQueue = job :: queue) :
    Step plan state (.work index)
      ({ state with jobQueue := queue }.setWorker index (.checking job))
  /-- A worker takes a job from the feeder's hand. -/
  | takesHanded {state : State} {index : Nat} {job : Job} {jobs : List Job}
    (hworker : state.workers[index]? = some .receiving) (hqueue : state.jobQueue = [])
    (hfeeder : state.feeder = .sending job jobs) (hroom : plan.jobCapacity = 0) :
    Step plan state (.work index)
      ({ state with feeder := .checking jobs, fed := state.fed + 1 }.setWorker index
        (.checking job))
  /-- A worker finds no job, and there will be none. -/
  | workerEnds {state : State} {index : Nat} (hworker : state.workers[index]? = some .receiving)
    (hqueue : state.jobQueue = []) (hfeeder : state.feeder = .done) :
    Step plan state (.work index) (state.setWorker index .done)
  /-- A worker sees a flag and skips its job. -/
  | skips {state : State} {index : Nat} {job : Job}
    (hworker : state.workers[index]? = some (.checking job)) (hstop : state.stopping = true) :
    Step plan state (.work index)
      ({ state with stats.filesSkipped := state.stats.filesSkipped + 1 }.setWorker index .receiving)
  /-- A worker sees no flag. -/
  | begins {state : State} {index : Nat} {job : Job}
    (hworker : state.workers[index]? = some (.checking job)) (hgo : state.stopping = false) :
    Step plan state (.work index) (state.setWorker index (.working job))
  /-- A worker extracts its job. -/
  | extracts {state : State} {index : Nat} {job : Job}
    (hworker : state.workers[index]? = some (.working job)) :
    Step plan state (.work index)
      ({ state with stats := State.count (plan.extract job) state.stats }.setWorker index
        (State.followUp (plan.extract job)))
  /-- A worker reports a diagnostic. -/
  | reports {state : State} {index : Nat} {diagnostic : Diagnostic} {blocks : List ExtractedBlock}
    (hworker : state.workers[index]? = some (.reporting diagnostic blocks)) :
    Step plan state (.work index)
      ({ state with reported := state.reported ++ [diagnostic] }.setWorker index
        (.delivering blocks))
  /-- A worker has delivered all blocks of its job. -/
  | finishes {state : State} {index : Nat}
    (hworker : state.workers[index]? = some (.delivering [])) :
    Step plan state (.work index) (state.setWorker index .receiving)
  /-- A worker finds nobody to deliver to. -/
  | workerFails {state : State} {index : Nat} {block : ExtractedBlock}
    {blocks : List ExtractedBlock}
    (hworker : state.workers[index]? = some (.delivering (block :: blocks)))
    (hconsumer : state.consumer = .done) :
    Step plan state (.work index) (state.setWorker index .done)
  /-- A worker puts a block on the queue. -/
  | puts {state : State} {index : Nat} {block : ExtractedBlock} {blocks : List ExtractedBlock}
    (hworker : state.workers[index]? = some (.delivering (block :: blocks)))
    (hroom : state.blockQueue.length < plan.blockCapacity) :
    Step plan state (.work index) ({ state with
        stats.blocksEmitted := state.stats.blocksEmitted + 1
        blockQueue := state.blockQueue ++ [block] }.setWorker index (.delivering blocks))
  /-- A worker gives a block into the consumer's hand. -/
  | hands {state : State} {index : Nat} {block : ExtractedBlock} {blocks : List ExtractedBlock}
    (hworker : state.workers[index]? = some (.delivering (block :: blocks)))
    (hroom : plan.blockCapacity = 0) (hqueue : ¬state.blockQueue.length < plan.blockCapacity)
    (hconsumer : state.isReceiving = true) :
    Step plan state (.work index) (({ state with
        stats.blocksEmitted := state.stats.blocksEmitted + 1 }.receive block).setWorker index
      (.delivering blocks))
  /-- The consumer receives a block from the queue. -/
  | receives {state : State} {block : ExtractedBlock} {queue : List ExtractedBlock}
    (hconsumer : state.isReceiving = true) (hqueue : state.blockQueue = block :: queue) :
    Step plan state .consume ({ state with blockQueue := queue }.receive block)
  /-- The consumer stops taking. -/
  | leaves {state : State} {wanted : Option Nat} (hconsumer : state.consumer = .taking wanted) :
    Step plan state .consume (state.leave plan)
  /-- The consumer finds nothing, and there will be nothing. -/
  | consumerEnds {state : State} (hconsumer : state.consumer = .draining)
    (hqueue : state.blockQueue = []) (hworkers : state.workersDone = true) :
    Step plan state .consume { state with consumer := .done }
  /-- The caller cancels. -/
  | cancels {state : State} : Step plan state .cancel { state with cancelled := true }

namespace State

theorem step_of_feed (h : state.feed plan = some next) : Step plan state .feed next := by
  unfold feed at h
  split at h
  · simp at h
  · next hfeeder =>
    rw [Option.some.injEq] at h
    exact h ▸ .feederEnds hfeeder
  · next job jobs hfeeder =>
    rw [Option.some.injEq] at h
    rw [← h]
    by_cases hstop : state.stopping = true
    · rw [if_pos hstop]
      exact .feederStops hfeeder hstop
    · rw [if_neg hstop]
      exact .feederPicks hfeeder (eq_false_of_ne_true hstop)
  · next job jobs hfeeder =>
    split at h
    · next hworkers =>
      rw [Option.some.injEq] at h
      exact h ▸ .feederFails hfeeder hworkers
    · split at h
      · next hroom =>
        rw [Option.some.injEq] at h
        exact h ▸ .feederPuts hfeeder hroom
      · simp at h

theorem step_of_consume (h : state.consume plan = some next) :
    Step plan state .consume next := by
  unfold consume at h
  split at h
  · next hreceiving =>
    split at h
    · next block queue hqueue =>
      rw [Option.some.injEq] at h
      exact h ▸ .receives hreceiving hqueue
    · next hqueue =>
      split at h
      · simp at h
      · next hworkers =>
        split at h
        · next hdraining =>
          rw [Option.some.injEq] at h
          exact h ▸ .consumerEnds hdraining hqueue (by simpa using hworkers)
        · next hdraining =>
          rw [Option.some.injEq] at h
          cases hconsumer : state.consumer with
          | taking wanted => exact h ▸ .leaves hconsumer
          | draining => exact absurd hconsumer hdraining
          | done => simp [isReceiving, hconsumer] at hreceiving
  · next hreceiving =>
    split at h
    · simp at h
    · next hdone =>
      rw [Option.some.injEq] at h
      cases hconsumer : state.consumer with
      | taking wanted => exact h ▸ .leaves hconsumer
      | draining => simp [isReceiving, hconsumer] at hreceiving
      | done => exact absurd hconsumer hdone

theorem step_of_receiving {index : Nat} (hworker : state.workers[index]? = some .receiving)
    (h : state.work plan index = some next) : Step plan state (.work index) next := by
  simp only [work, hworker, takeJob?] at h
  cases hqueue : state.jobQueue with
  | cons job queue =>
    simp only [hqueue, Option.some.injEq] at h
    exact h ▸ .takesJob hworker hqueue
  | nil =>
    cases hfeeder : state.feeder with
    | checking jobs => simp [hqueue, hfeeder] at h
    | sending job jobs =>
      by_cases hroom : plan.jobCapacity = 0
      · have hstep : Step plan state (.work index) _ := .takesHanded hworker hqueue hfeeder hroom
        simp only [hqueue, hfeeder, if_pos hroom, Option.some.injEq] at h hstep
        exact h ▸ hstep
      · simp [hqueue, hfeeder, hroom] at h
    | done =>
      simp only [hqueue, hfeeder, if_true, Option.some.injEq] at h
      exact h ▸ .workerEnds hworker hqueue hfeeder

theorem step_of_delivering {index : Nat} {block : ExtractedBlock} {blocks : List ExtractedBlock}
    (hworker : state.workers[index]? = some (.delivering (block :: blocks)))
    (h : state.work plan index = some next) : Step plan state (.work index) next := by
  simp only [work, hworker] at h
  split at h
  · next hconsumer =>
    rw [Option.some.injEq] at h
    exact h ▸ .workerFails hworker hconsumer
  · obtain ⟨sent, hsent, rfl⟩ := Option.map_eq_some_iff.mp h
    unfold deliver? at hsent
    dsimp only at hsent
    split at hsent
    · next hroom =>
      rw [Option.some.injEq] at hsent
      exact hsent ▸ .puts hworker hroom
    · next hqueue =>
      split at hsent
      · next hhand =>
        rw [Bool.and_eq_true, decide_eq_true_iff] at hhand
        rw [Option.some.injEq] at hsent
        exact hsent ▸ .hands hworker hhand.1 hqueue hhand.2
      · simp at hsent

theorem step_of_work {index : Nat} (h : state.work plan index = some next) :
    Step plan state (.work index) next := by
  cases hworker : state.workers[index]? with
  | none => simp [work, hworker] at h
  | some worker =>
    cases worker with
    | receiving => exact step_of_receiving hworker h
    | checking job =>
      simp only [work, hworker] at h
      split at h
      · next hstop =>
        rw [Option.some.injEq] at h
        exact h ▸ .skips hworker hstop
      · next hgo =>
        rw [Option.some.injEq] at h
        exact h ▸ .begins hworker (eq_false_of_ne_true hgo)
    | working job =>
      simp only [work, hworker, Option.some.injEq] at h
      exact h ▸ .extracts hworker
    | reporting diagnostic blocks =>
      simp only [work, hworker, Option.some.injEq] at h
      exact h ▸ .reports hworker
    | delivering blocks =>
      cases blocks with
      | nil =>
        simp only [work, hworker, Option.some.injEq] at h
        exact h ▸ .finishes hworker
      | cons block blocks => exact step_of_delivering hworker h
    | done => simp [work, hworker] at h

/-- **Every action is one of the steps listed.** -/
theorem step_of_act {action : Action} (h : state.act plan action = some next) :
    Step plan state action next := by
  cases action with
  | feed => exact step_of_feed h
  | work index => exact step_of_work h
  | consume => exact step_of_consume h
  | cancel =>
    simp only [act] at h
    split at h
    · simp at h
    · rw [Option.some.injEq] at h
      exact h ▸ .cancels

end State

/-! ## Runs -/

/-- The states that a stream may come to, whatever the order in which its actors act. -/
inductive Reachable (plan : Plan) (start : State) : State → Prop where
  /-- The state it starts in. -/
  | start : Reachable plan start start
  /-- A state that some action leads to. -/
  | act {state next : State} {action : Action} :
    Reachable plan start state → state.act plan action = some next → Reachable plan start next

/-- What holds at the start and is kept by every step holds in every run. -/
theorem Reachable.invariant {start : State} (Holds : State → Prop) (hstart : Holds start)
    (hstep : ∀ {state next : State} {action : Action},
      Holds state → Step plan state action next → Holds next)
    (h : Reachable plan start state) : Holds state := by
  induction h with
  | start => exact hstart
  | act _ haction ih => exact hstep ih (State.step_of_act haction)

theorem Reachable.trans {start middle : State} (h : Reachable plan start middle)
    (hstate : Reachable plan middle state) : Reachable plan start state := by
  induction hstate with
  | start => exact h
  | act _ haction ih => exact .act ih haction

theorem reachable_iff_exists_foldlM {start : State} :
    Reachable plan start state
      ↔ ∃ actions : List Action, actions.foldlM (State.act plan) start = some state := by
  constructor
  · intro h
    induction h with
    | start => exact ⟨[], rfl⟩
    | @act state next action _ haction ih =>
      obtain ⟨actions, hactions⟩ := ih
      refine ⟨actions ++ [action], ?_⟩
      rw [List.foldlM_append, hactions]
      simpa using haction
  · rintro ⟨actions, hactions⟩
    induction actions generalizing start with
    | nil =>
      rw [List.foldlM_nil, Option.pure_def, Option.some.injEq] at hactions
      exact hactions ▸ .start
    | cons action actions ih =>
      rw [List.foldlM_cons, Option.bind_eq_bind, Option.bind_eq_some_iff] at hactions
      obtain ⟨next, haction, hnext⟩ := hactions
      exact (Reachable.act .start haction).trans (ih hnext)

/-! ## What becomes of jobs in a run -/

namespace State

/-- The job that a step puts on the queue or into the hand of a worker: the feeder held it, and now
looks at the flags before the next one. -/
def fedJob? (state : State) (_ : Action) (next : State) : Option Job :=
  match state.feeder, next.feeder with
  | .sending job _, .checking _ => some job
  | _, _ => none

/-- The job that a step extracts, with a scan or an error as its outcome. -/
def workedJob? (state : State) (action : Action) (_ : State) : Option Job :=
  match action with
  | .work index =>
    match state.workers[index]? with
    | some (.working job) => some job
    | _ => none
  | _ => none

/-- The job that a step skips. -/
def skippedJob? (state : State) (action : Action) (_ : State) : Option Job :=
  match action with
  | .work index =>
    match state.workers[index]? with
    | some (.checking job) => if state.stopping then some job else none
    | _ => none
  | _ => none

/-- What `observe` sees in the steps of a run, oldest first. -/
def trail (plan : Plan) (observe : State → Action → State → Option Job) (state : State) :
    List Action → List Job
  | [] => []
  | action :: actions =>
    match state.act plan action with
    | some next => (observe state action next).toList ++ next.trail plan observe actions
    | none => []

theorem trail_cons {observe : State → Action → State → Option Job} {action : Action}
    {actions : List Action} (h : state.act plan action = some next) :
    state.trail plan observe (action :: actions)
      = (observe state action next).toList ++ next.trail plan observe actions := by
  rw [trail, h]

end State

end Stream

end CommentBlocks
