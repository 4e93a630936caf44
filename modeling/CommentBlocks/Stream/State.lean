import CommentBlocks.Extract.File

/-!
# The state of a stream

Extraction of many files runs as a small concurrent system. A *feeder* puts jobs on a bounded queue.
*Workers* take jobs from it, extract them, report diagnostics, and put the blocks found on a second
bounded queue. A *consumer* takes blocks from that one. Two flags ask everybody to stop: the token
of the caller, and the mark a consumer leaves when it walks away.

A state records what each of them is about to do, what is on the queues, and what has been counted,
reported and received. The points at which an actor can be interrupted are states of their own: in
particular looking at the flags and acting on what was seen are two steps, as they are in a program
whose threads share nothing but the flags.

## Queues without room

A queue of capacity zero holds nothing. On it a sender and a receiver meet, and both move in the
same step.
-/

namespace CommentBlocks

namespace Stream

/-- What the feeder is about to do. -/
inductive Feeder where
  /-- Look at the flags before the next of `jobs`. -/
  | checking (jobs : List Job)
  /-- Put `job` on the queue, then go on with `jobs`. -/
  | sending (job : Job) (jobs : List Job)
  /-- Nothing more. -/
  | done
deriving DecidableEq

/-- What a worker is about to do. -/
inductive Worker where
  /-- Take a job. -/
  | receiving
  /-- Look at the flags before extracting `job`. -/
  | checking (job : Job)
  /-- Extract `job`. -/
  | working (job : Job)
  /-- Report a diagnostic, then deliver `blocks`. -/
  | reporting (diagnostic : Diagnostic) (blocks : List ExtractedBlock)
  /-- Deliver `blocks`, one at a time. -/
  | delivering (blocks : List ExtractedBlock)
  /-- Nothing more. -/
  | done
deriving DecidableEq

/-- What the consumer is about to do. -/
inductive Consumer where
  /-- Take blocks: as many as wanted, or all there will be. -/
  | taking (wanted : Option Nat)
  /-- Receive what is left without looking at it. -/
  | draining
  /-- Nothing more. -/
  | done
deriving DecidableEq

/-- The counters of a stream. -/
structure Stats where
  /-- Files scanned, whether to their end or not. -/
  filesScanned : Nat := 0
  /-- Files that could not be scanned. -/
  filesFailed : Nat := 0
  /-- Files taken from the queue and dropped because of a flag. -/
  filesSkipped : Nat := 0
  /-- Blocks delivered. -/
  blocksEmitted : Nat := 0
  /-- Scans that stopped early. -/
  warnings : Nat := 0
deriving DecidableEq

/-- Everything that changes while a stream runs. -/
structure State where
  /-- The feeder. -/
  feeder : Feeder
  /-- The workers. -/
  workers : List Worker
  /-- The consumer. -/
  consumer : Consumer
  /-- The jobs on the queue, oldest first. -/
  jobQueue : List Job := []
  /-- The blocks on the queue, oldest first. -/
  blockQueue : List ExtractedBlock := []
  /-- The flag of the caller. -/
  cancelled : Bool := false
  /-- The flag of a consumer that walked away. -/
  abandoned : Bool := false
  /-- The number of jobs put on the queue. -/
  fed : Nat := 0
  /-- The counters. -/
  stats : Stats := {}
  /-- The diagnostics reported, oldest first. -/
  reported : List Diagnostic := []
  /-- The blocks taken by the consumer, oldest first. -/
  taken : List ExtractedBlock := []
  /-- The blocks received after the consumer stopped taking, oldest first. -/
  drained : List ExtractedBlock := []
deriving DecidableEq

/-- What stays the same while a stream runs. -/
structure Plan where
  /-- What comes of a job. -/
  extract : Job → Outcome
  /-- The capacity of the job queue. -/
  jobCapacity : Nat
  /-- The capacity of the block queue. -/
  blockCapacity : Nat
  /-- Whether the consumer walks away when it has taken what it wanted. -/
  abandons : Bool

/-- The state in which a stream starts. -/
def State.start (jobs : List Job) (workers : Nat) (wanted : Option Nat) (cancelled : Bool) :
    State where
  feeder := .checking jobs
  workers := List.replicate workers .receiving
  consumer := .taking wanted
  cancelled := cancelled

namespace State

/-- Whether a flag is set. -/
def stopping (state : State) : Bool := state.cancelled || state.abandoned

def workersDone (state : State) : Bool := state.workers.all (· = .done)

/-- Whether the feeder, the workers and the consumer have all finished. -/
def isTerminal (state : State) : Bool :=
  state.feeder = .done && state.workersDone && state.consumer = .done && state.blockQueue.isEmpty

/-- All blocks that have reached the consumer, oldest first. -/
def delivered (state : State) : List ExtractedBlock := state.taken ++ state.drained

end State

end Stream

end CommentBlocks
