import CommentBlocks.Stream.State

/-!
# The steps of a stream

Each actor has at most one step in a given state, or none while it waits. `act` is that step; a run
of a stream is any sequence of such steps, in whatever order the machine schedules the actors and
with the caller free to cancel at any time.

## Failed sends

A send fails when nobody is left to receive, and then its sender stops. Both cases are written out
here, for the feeder when all workers have finished and for a worker when the consumer has, although
the order in which the actors finish leaves no room for either.
-/

namespace CommentBlocks

namespace Stream

/-- Who may act. -/
inductive Action where
  /-- The feeder. -/
  | feed
  /-- A worker, by its number. -/
  | work (index : Nat)
  /-- The consumer. -/
  | consume
  /-- The caller, who cancels. -/
  | cancel
deriving DecidableEq

namespace State

/-! ## The feeder -/

/-- The next step of the feeder. -/
def feed (plan : Plan) (state : State) : Option State :=
  match state.feeder with
  | .done => none
  | .checking [] => some { state with feeder := .done }
  | .checking (job :: jobs) =>
    some { state with feeder := if state.stopping then .done else .sending job jobs }
  | .sending job jobs =>
    if state.workersDone then some { state with feeder := .done }
    else if state.jobQueue.length < plan.jobCapacity then
      some { state with
        feeder := .checking jobs, jobQueue := state.jobQueue ++ [job], fed := state.fed + 1 }
    else none

/-! ## The consumer -/

def isReceiving (state : State) : Bool :=
  match state.consumer with
  | .taking (some 0) | .done => false
  | .taking _ | .draining => true

def receive (block : ExtractedBlock) (state : State) : State :=
  match state.consumer with
  | .taking wanted =>
    { state with
      consumer := .taking (wanted.map (· - 1)), taken := state.taken ++ [block] }
  | .draining | .done => { state with drained := state.drained ++ [block] }

/-- The consumer has taken what it wanted, or all there was. -/
def leave (plan : Plan) (state : State) : State :=
  { state with consumer := .draining, abandoned := state.abandoned || plan.abandons }

/-- The next step of the consumer. -/
def consume (plan : Plan) (state : State) : Option State :=
  if state.isReceiving then
    match state.blockQueue with
    | block :: queue => some (receive block { state with blockQueue := queue })
    | [] =>
      if !state.workersDone then none
      else if state.consumer = .draining then some { state with consumer := .done }
      else some (state.leave plan)
  else if state.consumer = .done then none
  else some (state.leave plan)

/-! ## The workers -/

/-- Take the next job: from the queue, or from the feeder's hand if the queue has no room at all. -/
def takeJob? (plan : Plan) (state : State) : Option (Job × State) :=
  match state.jobQueue with
  | job :: queue => some (job, { state with jobQueue := queue })
  | [] =>
    match state.feeder with
    | .sending job jobs =>
      if plan.jobCapacity = 0 then
        some (job, { state with feeder := .checking jobs, fed := state.fed + 1 })
      else none
    | _ => none

/-- Deliver a block: to the queue, or into the consumer's hand if the queue has no room at all. -/
def deliver? (plan : Plan) (block : ExtractedBlock) (state : State) : Option State :=
  let counted :=
    { state with stats.blocksEmitted := state.stats.blocksEmitted + 1 }
  if state.blockQueue.length < plan.blockCapacity then
    some { counted with blockQueue := state.blockQueue ++ [block] }
  else if plan.blockCapacity = 0 && state.isReceiving then some (counted.receive block)
  else none

/-- Count a file by what came of it. A scan that has a diagnostic counts as a warning. -/
def count (outcome : Outcome) (stats : Stats) : Stats :=
  match outcome with
  | .error _ => { stats with filesFailed := stats.filesFailed + 1 }
  | .ok scan =>
    { stats with
      filesScanned := stats.filesScanned + 1
      warnings := stats.warnings + if scan.diagnostic?.isSome then 1 else 0 }

/-- What a worker does with what came of a file. -/
def followUp (outcome : Outcome) : Worker :=
  match outcome.diagnostic? with
  | some diagnostic => .reporting diagnostic outcome.blocks
  | none => .delivering outcome.blocks

/-- Let the worker with a number go on as `worker`. -/
def setWorker (index : Nat) (worker : Worker) (state : State) : State :=
  { state with workers := state.workers.set index worker }

/-- The next step of a worker. -/
def work (plan : Plan) (index : Nat) (state : State) : Option State :=
  match state.workers[index]? with
  | none | some .done => none
  | some .receiving =>
    match state.takeJob? plan with
    | some (job, state) => some (state.setWorker index (.checking job))
    | none => if state.feeder = .done then some (state.setWorker index .done) else none
  | some (.checking job) =>
    if state.stopping then
      some ({ state with stats.filesSkipped := state.stats.filesSkipped + 1 }.setWorker index
        .receiving)
    else some (state.setWorker index (.working job))
  | some (.working job) =>
    some ({ state with stats := count (plan.extract job) state.stats }.setWorker index
      (followUp (plan.extract job)))
  | some (.reporting diagnostic blocks) =>
    some ({ state with reported := state.reported ++ [diagnostic] }.setWorker index
      (.delivering blocks))
  | some (.delivering []) => some (state.setWorker index .receiving)
  | some (.delivering (block :: blocks)) =>
    if state.consumer = .done then some (state.setWorker index .done)
    else (state.deliver? plan block).map (setWorker index (.delivering blocks))

/-! ## All actors -/

/-- The step that an action is, if it can be taken. -/
def act (plan : Plan) (state : State) : Action → Option State
  | .feed => state.feed plan
  | .work index => state.work plan index
  | .consume => state.consume plan
  | .cancel => if state.cancelled then none else some { state with cancelled := true }

end State

end Stream

end CommentBlocks
