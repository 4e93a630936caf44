import CommentBlocks.Stream.Step

/-!
# Running a stream

Every step of a stream leaves less to be done. `State.effort` counts it: the steps that each job,
block and actor may still cause. So every run comes to an end, however the actors are scheduled.

`run` is one such run, under a fixed schedule: the feeder acts whenever it can, else the first
worker that can, else the consumer. Its caller may cancel when a given number of diagnostics has
been reported.
-/

namespace CommentBlocks

namespace Stream

/-! ## What is left to be done -/

def total {α : Type} (f : α → Nat) (xs : List α) : Nat := xs.foldr (fun x sum ↦ f x + sum) 0

@[simp] theorem total_nil {α : Type} (f : α → Nat) : total f [] = 0 := rfl

@[simp] theorem total_cons {α : Type} (f : α → Nat) (x : α) (xs : List α) :
    total f (x :: xs) = f x + total f xs := rfl

@[simp] theorem total_append {α : Type} (f : α → Nat) (xs ys : List α) :
    total f (xs ++ ys) = total f xs + total f ys := by
  induction xs with
  | nil => simp
  | cons x xs ih =>
    rw [List.cons_append, total_cons, total_cons, ih]
    omega

theorem total_set {α : Type} (f : α → Nat) {xs : List α} {i : Nat} {a : α} (b : α)
    (h : xs[i]? = some a) : total f (xs.set i b) + f a = total f xs + f b := by
  induction xs generalizing i with
  | nil => simp at h
  | cons x xs ih =>
    cases i with
    | zero =>
      simp only [List.getElem?_cons_zero, Option.some.injEq] at h
      rw [List.set_cons_zero, total_cons, total_cons, h]
      omega
    | succ i =>
      have := ih (List.getElem?_cons_succ ▸ h)
      rw [List.set_cons_succ, total_cons, total_cons]
      omega

/-- The steps that a job on the queue may cause: to be taken, checked, extracted and reported, and
two for each of its blocks. -/
def jobEffort (plan : Plan) (job : Job) : Nat := 2 * (plan.extract job).blocks.length + 5

/-- The steps that the feeder may cause. Each job it holds is looked at and sent first. -/
def Feeder.effort (plan : Plan) : Feeder → Nat
  | checking jobs => total (fun job ↦ jobEffort plan job + 2) jobs + 1
  | sending job jobs =>
    jobEffort plan job + 1 + (total (fun job ↦ jobEffort plan job + 2) jobs + 1)
  | done => 0

/-- The steps that a worker may cause. -/
def Worker.effort (plan : Plan) : Worker → Nat
  | receiving => 1
  | checking job => jobEffort plan job
  | working job => 2 * (plan.extract job).blocks.length + 4
  | reporting _ blocks => 2 * blocks.length + 3
  | delivering blocks => 2 * blocks.length + 2
  | done => 0

/-- The steps that the consumer may cause besides receiving. -/
def Consumer.effort : Consumer → Nat
  | taking _ => 2
  | draining => 1
  | done => 0

namespace State

/-- The steps that a state may still lead to, at most. -/
def effort (plan : Plan) (state : State) : Nat :=
  state.feeder.effort plan + total (Worker.effort plan) state.workers + state.consumer.effort
    + total (jobEffort plan) state.jobQueue + state.blockQueue.length
    + (!state.cancelled).toNat

end State

namespace State

theorem effort_setWorker (plan : Plan) (state : State) {index : Nat} {before : Worker}
    (after : Worker) (h : state.workers[index]? = some before) :
    (state.setWorker index after).effort plan + before.effort plan
      = state.effort plan + after.effort plan := by
  have := total_set (Worker.effort plan) after h
  simp only [effort, setWorker]
  omega

theorem effort_feed {plan : Plan} {state next : State} (h : state.feed plan = some next) :
    next.effort plan < state.effort plan := by
  unfold feed at h
  split at h
  · simp at h
  · next hf =>
    simp only [Option.some.injEq] at h
    simp [← h, effort, hf, Feeder.effort]
  · next job jobs hf =>
    simp only [Option.some.injEq] at h
    simp only [← h, effort, hf]
    split <;> simp only [Feeder.effort, total_cons] <;> omega
  · next job jobs hf =>
    split at h
    · simp only [Option.some.injEq] at h
      simp only [← h, effort, hf, Feeder.effort]
      omega
    · split at h
      · simp only [Option.some.injEq] at h
        simp only [← h, effort, hf, Feeder.effort, total_append, total_cons, total_nil]
        omega
      · simp at h

theorem effort_receive (plan : Plan) (block : ExtractedBlock) (state : State) :
    (state.receive block).effort plan = state.effort plan := by
  unfold receive
  split <;> simp_all [effort, Consumer.effort]

theorem effort_leave {plan : Plan} {state : State} {wanted : Option Nat}
    (h : state.consumer = .taking wanted) : (state.leave plan).effort plan < state.effort plan := by
  simp only [leave, effort, h, Consumer.effort]
  omega

theorem effort_consume {plan : Plan} {state next : State} (h : state.consume plan = some next) :
    next.effort plan < state.effort plan := by
  unfold consume at h
  split at h
  · next hreceiving =>
    split at h
    · next block queue hqueue =>
      simp only [Option.some.injEq] at h
      rw [← h, effort_receive]
      simp only [effort, hqueue, List.length_cons]
      omega
    · split at h
      · simp at h
      · split at h
        · next hdraining =>
          simp only [Option.some.injEq] at h
          simp only [← h, effort, hdraining, Consumer.effort]
          omega
        · next hdraining =>
          simp only [Option.some.injEq] at h
          cases hc : state.consumer with
          | taking wanted => exact h ▸ effort_leave hc
          | draining => exact absurd hc hdraining
          | done => simp [isReceiving, hc] at hreceiving
  · next hreceiving =>
    split at h
    · simp at h
    · next hdone =>
      simp only [Option.some.injEq] at h
      cases hc : state.consumer with
      | taking wanted => exact h ▸ effort_leave hc
      | draining => simp [isReceiving, hc] at hreceiving
      | done => exact absurd hc hdone

theorem effort_takeJob? {plan : Plan} {state next : State} {job : Job}
    (h : state.takeJob? plan = some (job, next)) :
    next.workers = state.workers ∧ next.effort plan + jobEffort plan job ≤ state.effort plan := by
  unfold takeJob? at h
  split at h
  · next queued queue hqueue =>
    simp only [Option.some.injEq, Prod.mk.injEq] at h
    obtain ⟨rfl, rfl⟩ := h
    refine ⟨rfl, ?_⟩
    simp only [effort, hqueue, total_cons]
    omega
  · split at h
    · next sent jobs hf =>
      split at h
      · simp only [Option.some.injEq, Prod.mk.injEq] at h
        obtain ⟨rfl, rfl⟩ := h
        refine ⟨rfl, ?_⟩
        simp only [effort, hf, Feeder.effort]
        omega
      · simp at h
    · simp at h

theorem effort_deliver? {plan : Plan} {state next : State} {block : ExtractedBlock}
    (h : state.deliver? plan block = some next) :
    next.workers = state.workers ∧ next.effort plan ≤ state.effort plan + 1 := by
  unfold deliver? at h
  dsimp only at h
  split at h
  · simp only [Option.some.injEq] at h
    rw [← h]
    refine ⟨rfl, ?_⟩
    simp only [effort, List.length_append, List.length_cons, List.length_nil]
    omega
  · split at h
    · simp only [Option.some.injEq] at h
      rw [← h]
      refine ⟨?_, ?_⟩
      · unfold receive
        split <;> rfl
      · rw [effort_receive]
        simp [effort]
    · simp at h

theorem effort_followUp (plan : Plan) (job : Job) :
    (followUp (plan.extract job)).effort plan < (Worker.working job).effort plan := by
  unfold followUp
  split <;> simp only [Worker.effort] <;> omega

theorem effort_work {plan : Plan} {state next : State} {index : Nat}
    (h : state.work plan index = some next) : next.effort plan < state.effort plan := by
  unfold work at h
  split at h
  · simp at h
  · simp at h
  · next hw =>
    split at h
    · next job rest htake =>
      obtain ⟨hworkers, heffort⟩ := effort_takeJob? htake
      have := effort_setWorker plan rest (.checking job) (hworkers ▸ hw)
      simp only [Option.some.injEq] at h
      rw [← h]
      simp only [Worker.effort] at this
      omega
    · split at h
      · have := effort_setWorker plan state .done hw
        simp only [Option.some.injEq] at h
        rw [← h]
        simp only [Worker.effort] at this
        omega
      · simp at h
  · next job hw =>
    split at h
    · simp only [Option.some.injEq] at h
      rw [← h]
      have := effort_setWorker plan
        { state with stats.filesSkipped := state.stats.filesSkipped + 1 } .receiving hw
      simp only [Worker.effort, jobEffort] at this
      simp only [effort] at this ⊢
      omega
    · have := effort_setWorker plan state (.working job) hw
      simp only [Option.some.injEq] at h
      rw [← h]
      simp only [Worker.effort, jobEffort] at this
      omega
  · next job hw =>
    simp only [Option.some.injEq] at h
    rw [← h]
    have := effort_setWorker plan
      { state with stats := count (plan.extract job) state.stats } (followUp (plan.extract job)) hw
    have := effort_followUp plan job
    simp only [effort] at *
    omega
  · next diagnostic blocks hw =>
    simp only [Option.some.injEq] at h
    rw [← h]
    have := effort_setWorker plan
      { state with reported := state.reported ++ [diagnostic] } (.delivering blocks) hw
    simp only [Worker.effort] at this
    simp only [effort] at this ⊢
    omega
  · next hw =>
    have := effort_setWorker plan state .receiving hw
    simp only [Option.some.injEq] at h
    rw [← h]
    simp only [Worker.effort] at this
    omega
  · next block blocks hw =>
    split at h
    · have := effort_setWorker plan state .done hw
      simp only [Option.some.injEq] at h
      rw [← h]
      simp only [Worker.effort, List.length_cons] at this
      omega
    · obtain ⟨sent, hsent, rfl⟩ := Option.map_eq_some_iff.mp h
      obtain ⟨hworkers, heffort⟩ := effort_deliver? hsent
      have := effort_setWorker plan sent (.delivering blocks) (hworkers ▸ hw)
      simp only [Worker.effort, List.length_cons] at this
      omega

/-- Every step leaves less to be done. -/
theorem effort_act {plan : Plan} {state next : State} {action : Action}
    (h : state.act plan action = some next) : next.effort plan < state.effort plan := by
  cases action with
  | feed => exact effort_feed h
  | work index => exact effort_work h
  | consume => exact effort_consume h
  | cancel =>
    simp only [act] at h
    split at h
    · simp at h
    · next hc =>
      simp only [Option.some.injEq] at h
      simp [← h, effort, hc]

/-! ## One schedule -/

/-- The actors in the order in which they get their turn. The caller comes first, but only once
`cancelAfter` diagnostics have been reported. -/
def turns (cancelAfter : Option Nat) (state : State) : List Action :=
  let due := cancelAfter.any fun count ↦ count ≤ state.reported.length
  (if due then [.cancel] else []) ++ .feed :: (List.range state.workers.length).map .work
    ++ [.consume]

def next? (plan : Plan) (cancelAfter : Option Nat) (state : State) : Option State :=
  (state.turns cancelAfter).findSome? (state.act plan)

theorem effort_next? {plan : Plan} {cancelAfter : Option Nat} {state next : State}
    (h : state.next? plan cancelAfter = some next) : next.effort plan < state.effort plan := by
  obtain ⟨action, -, haction⟩ := List.exists_of_findSome?_eq_some h
  exact effort_act haction

/-- Let the actors take turns until none can act. -/
def run (plan : Plan) (cancelAfter : Option Nat) (state : State) : State :=
  match h : state.next? plan cancelAfter with
  | some next =>
    have := effort_next? h
    run plan cancelAfter next
  | none => state
termination_by state.effort plan

end State

end Stream

/-- How a stream is used. -/
structure Stream.Request where
  /-- The blocks the consumer wants; all if absent. -/
  wanted : Option Nat := none
  /-- Whether the consumer then walks away instead of waiting for the rest. -/
  abandons : Bool := false
  /-- Whether the stream was cancelled before it started. -/
  cancelled : Bool := false
  /-- The number of diagnostics after which the caller cancels, if it does. -/
  cancelAfter : Option Nat := none
deriving DecidableEq

/-- The plan of a stream: jobs are extracted as single files are, and the settings give the room on
the queues. -/
def Extractor.plan (extractor : Extractor) (abandons : Bool) : Stream.Plan where
  extract := extractor.extractFile
  jobCapacity := extractor.config.jobCapacity
  blockCapacity := extractor.config.resultCapacity
  abandons := abandons

/-- Extract files as a stream, and give the state in which it ends. -/
def Extractor.stream (extractor : Extractor) (workers : Nat) (request : Stream.Request)
    (jobs : List Job) : Stream.State :=
  (Stream.State.start jobs workers request.wanted request.cancelled).run
    (extractor.plan request.abandons) request.cancelAfter

end CommentBlocks
