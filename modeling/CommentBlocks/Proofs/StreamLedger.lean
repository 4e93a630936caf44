import CommentBlocks.Proofs.Interleaving
import CommentBlocks.Proofs.StreamSteps
import Mathlib.Algebra.BigOperators.Group.Multiset.Basic
import Mathlib.Data.Multiset.Count
import Mathlib.Data.Multiset.Filter
import Mathlib.Tactic.Abel

/-!
# The ledger of a stream

Where is each job, each diagnostic and each block of a running stream? Two invariants answer.

`Orderly` is about the order in which the actors finish: the feeder first, then the workers, then
the consumer. It is what rules out failed sends.

`Ledger` accounts for everything that entered the stream. It speaks of two multisets that no actor
keeps, the jobs worked on so far and the jobs skipped so far, and says how the queues, the hands of
the workers, the counters, the diagnostics and the blocks follow from them. It holds under every
schedule, whether the stream is told to stop or not.
-/

namespace CommentBlocks

namespace Stream

variable {plan : Plan} {state next : State} {action : Action} {jobs : List Job}

/-! ## The order in which actors finish -/

/-- The actors finish in order, and the consumer drains only after taking. -/
structure Orderly (plan : Plan) (state : State) : Prop where
  /-- There are workers. -/
  staffed : state.workers ≠ []
  /-- A worker finishes only when there are no more jobs. -/
  closed : .done ∈ state.workers → state.feeder = .done ∧ state.jobQueue = []
  /-- The consumer finishes only after the workers. -/
  outlasts : state.consumer = .done → state.workersDone = true
  /-- While the consumer takes, nothing was drained. -/
  undrained : ∀ {wanted : Option Nat}, state.consumer = .taking wanted → state.drained = []
  /-- The block queue is within its capacity. -/
  room : state.blockQueue.length ≤ plan.blockCapacity

theorem workersDone_iff : state.workersDone = true ↔ ∀ worker ∈ state.workers, worker = .done := by
  simp [State.workersDone]

theorem workersDone_eq_false {index : Nat} {worker : Worker}
    (hworker : state.workers[index]? = some worker) (hne : worker ≠ .done) :
    state.workersDone = false := by
  rw [Bool.eq_false_iff]
  intro hdone
  exact hne (workersDone_iff.mp hdone worker (List.mem_of_getElem? hworker))

theorem done_mem_of_mem_set {workers : List Worker} {index : Nat} {after : Worker}
    (hne : after ≠ .done) (h : .done ∈ workers.set index after) : .done ∈ workers := by
  rcases List.mem_or_eq_of_mem_set h with h | h
  · exact h
  · exact absurd h.symm hne

theorem followUp_ne_done (outcome : Outcome) : State.followUp outcome ≠ .done := by
  unfold State.followUp
  split <;> simp

@[simp] theorem receive_workers (block : ExtractedBlock) :
    (state.receive block).workers = state.workers := by
  unfold State.receive
  split <;> rfl

theorem getElem?_receive_workers (block : ExtractedBlock) (index : Nat) {worker : Worker}
    {stats : Stats} (hworker : state.workers[index]? = some worker) :
    ({ state with stats := stats }.receive block).workers[index]? = some worker := by
  rw [receive_workers]
  exact hworker

namespace Orderly

theorem feeder_eq_done (h : Orderly plan state) (hdone : state.workersDone = true) :
    state.feeder = .done ∧ state.jobQueue = [] := by
  obtain ⟨worker, hworker⟩ := List.exists_mem_of_ne_nil _ h.staffed
  exact h.closed (workersDone_iff.mp hdone worker hworker ▸ hworker)

theorem consumer_ne_done (h : Orderly plan state) {index : Nat} {worker : Worker}
    (hworker : state.workers[index]? = some worker) (hne : worker ≠ .done) :
    state.consumer ≠ .done := by
  intro hconsumer
  have := h.outlasts hconsumer
  rw [workersDone_eq_false hworker hne] at this
  exact absurd this Bool.false_ne_true

theorem setWorker (h : Orderly plan state) {index : Nat} {before after : Worker}
    (hworker : state.workers[index]? = some before) (hbefore : before ≠ .done)
    (hafter : after ≠ .done) : Orderly plan (state.setWorker index after) where
  staffed := by simpa [State.setWorker] using h.staffed
  closed hdone := h.closed (done_mem_of_mem_set hafter hdone)
  outlasts hconsumer := absurd hconsumer (h.consumer_ne_done hworker hbefore)
  undrained := h.undrained
  room := h.room

theorem receive (h : Orderly plan state) (block : ExtractedBlock) :
    Orderly plan (state.receive block) := by
  unfold State.receive
  split
  · next wanted hconsumer =>
    refine ⟨h.staffed, h.closed, ?_, fun _ ↦ h.undrained hconsumer, h.room⟩
    intro hdone
    exact absurd hdone (by simp)
  · next hconsumer =>
    refine ⟨h.staffed, h.closed, h.outlasts, ?_, h.room⟩
    intro wanted htaking
    exact absurd (hconsumer.symm.trans htaking) (by simp)
  · next hconsumer =>
    refine ⟨h.staffed, h.closed, h.outlasts, ?_, h.room⟩
    intro wanted htaking
    exact absurd (hconsumer.symm.trans htaking) (by simp)

/-- The counters and the diagnostics do not matter. -/
theorem books (h : Orderly plan state) (stats : Stats) (reported : List Diagnostic) :
    Orderly plan { state with stats := stats, reported := reported } :=
  ⟨h.staffed, h.closed, h.outlasts, h.undrained, h.room⟩

/-- While the feeder has not finished, what it does and what is on the job queue do not matter. -/
theorem feeding (h : Orderly plan state) (hopen : state.feeder ≠ .done ∨ state.jobQueue ≠ [])
    (feeder : Feeder) (jobQueue : List Job) (fed : Nat) :
    Orderly plan { state with feeder := feeder, jobQueue := jobQueue, fed := fed } := by
  refine ⟨h.staffed, ?_, h.outlasts, h.undrained, h.room⟩
  intro hdone
  obtain ⟨hfeeder, hqueue⟩ := h.closed hdone
  rcases hopen with hopen | hopen
  · exact absurd hfeeder hopen
  · exact absurd hqueue hopen

theorem shorten (h : Orderly plan state) {block : ExtractedBlock} {queue : List ExtractedBlock}
    (hqueue : state.blockQueue = block :: queue) :
    Orderly plan { state with blockQueue := queue } := by
  refine ⟨h.staffed, h.closed, h.outlasts, h.undrained, le_trans ?_ h.room⟩
  rw [hqueue]
  exact Nat.le_succ _

theorem step (h : Orderly plan state) (hstep : Step plan state action next) :
    Orderly plan next := by
  cases hstep with
  | feederEnds hfeeder | feederStops hfeeder | feederPicks hfeeder | feederPuts hfeeder =>
    exact h.feeding (Or.inl (by simp [hfeeder])) _ _ _
  | feederFails hfeeder hworkers =>
    -- the workers do not finish before the feeder, so this step is never taken
    exact absurd (hfeeder.symm.trans (h.feeder_eq_done hworkers).1) (by simp)
  | takesJob hworker hqueue =>
    have hopen : state.jobQueue ≠ [] := hqueue ▸ List.cons_ne_nil _ _
    exact (h.feeding (Or.inr hopen) _ _ _).setWorker hworker (by simp) (by simp)
  | takesHanded hworker _ hfeeder =>
    have hopen : state.feeder ≠ .done := by simp [hfeeder]
    exact (h.feeding (Or.inl hopen) _ _ _).setWorker hworker (by simp) (by simp)
  | workerEnds hworker hqueue hfeeder =>
    refine ⟨?_, fun _ ↦ ⟨hfeeder, hqueue⟩, ?_, h.undrained, h.room⟩
    · simpa [State.setWorker] using h.staffed
    · intro hconsumer
      exact absurd hconsumer (h.consumer_ne_done hworker (by simp))
  | skips hworker => exact (h.books _ _).setWorker hworker (by simp) (by simp)
  | begins hworker => exact h.setWorker hworker (by simp) (by simp)
  | extracts hworker => exact (h.books _ _).setWorker hworker (by simp) (followUp_ne_done _)
  | reports hworker => exact (h.books _ _).setWorker hworker (by simp) (by simp)
  | finishes hworker => exact h.setWorker hworker (by simp) (by simp)
  | workerFails hworker hconsumer =>
    exact absurd hconsumer (h.consumer_ne_done hworker (by simp))
  | @puts index block blocks hworker hroom =>
    have hput : Orderly plan { state with blockQueue := state.blockQueue ++ [block] } := by
      refine ⟨h.staffed, h.closed, h.outlasts, h.undrained, ?_⟩
      rw [List.length_append]
      exact hroom
    exact (hput.books _ _).setWorker hworker (by simp) (by simp)
  | @hands index block blocks hworker =>
    exact ((h.books _ _).receive block).setWorker (getElem?_receive_workers block index hworker)
      (by simp) (by simp)
  | @receives block _ _ hqueue => exact (h.shorten hqueue).receive block
  | leaves =>
    refine ⟨h.staffed, h.closed, ?_, ?_, h.room⟩
    · intro hdone
      exact absurd hdone (by simp [State.leave])
    · intro wanted htaking
      exact absurd htaking (by simp [State.leave])
  | consumerEnds _ _ hworkers =>
    refine ⟨h.staffed, h.closed, fun _ ↦ hworkers, ?_, h.room⟩
    intro wanted htaking
    exact absurd htaking (by simp)
  | cancels => exact ⟨h.staffed, h.closed, h.outlasts, h.undrained, h.room⟩

end Orderly

/-! ## What workers hold -/

/-- The jobs a feeder has yet to send. -/
def Feeder.left : Feeder → List Job
  | checking jobs => jobs
  | sending job jobs => job :: jobs
  | done => []

/-- The job a worker has taken and not yet extracted. -/
def Worker.held : Worker → Multiset Job
  | checking job | working job => {job}
  | receiving | reporting _ _ | delivering _ | done => 0

/-- The diagnostic a worker has yet to report. -/
def Worker.notice : Worker → Multiset Diagnostic
  | reporting diagnostic _ => {diagnostic}
  | receiving | checking _ | working _ | delivering _ | done => 0

/-- The blocks a worker has yet to deliver. -/
def Worker.owed : Worker → Multiset (List ExtractedBlock)
  | reporting _ blocks | delivering blocks => remaining blocks
  | receiving | checking _ | working _ | done => 0

section FollowUp

variable (outcome : Outcome)

theorem held_followUp : (State.followUp outcome).held = 0 := by
  unfold State.followUp
  split <;> rfl

theorem notice_followUp :
    (State.followUp outcome).notice = (outcome.diagnostic?.map singleton).getD 0 := by
  unfold State.followUp
  split
  · next hdiagnostic => rw [hdiagnostic]; rfl
  · next hdiagnostic => rw [hdiagnostic]; rfl

theorem owed_followUp : (State.followUp outcome).owed = remaining outcome.blocks := by
  unfold State.followUp
  split <;> rfl

end FollowUp

/-- What all workers hold together changes as what one of them holds does. -/
theorem sum_map_set {α : Type} (f : Worker → Multiset α) {workers : List Worker} {index : Nat}
    {before : Worker} (hworker : workers[index]? = some before) :
    ∃ others, (workers.map f).sum = f before + others ∧
      ∀ after, ((workers.set index after).map f).sum = f after + others := by
  induction workers generalizing index with
  | nil => simp at hworker
  | cons worker workers ih =>
    cases index with
    | zero =>
      rw [List.getElem?_cons_zero, Option.some.injEq] at hworker
      refine ⟨(workers.map f).sum, ?_, ?_⟩
      · rw [List.map_cons, List.sum_cons, hworker]
      · intro after
        rw [List.set_cons_zero, List.map_cons, List.sum_cons]
    | succ index =>
      rw [List.getElem?_cons_succ] at hworker
      obtain ⟨others, hbefore, hafter⟩ := ih hworker
      refine ⟨f worker + others, ?_, ?_⟩
      · rw [List.map_cons, List.sum_cons, hbefore, add_left_comm]
      · intro after
        rw [List.set_cons_succ, List.map_cons, List.sum_cons, hafter, add_left_comm]

theorem sum_map_set_of_eq {α : Type} (f : Worker → Multiset α) {workers : List Worker} {index : Nat}
    {before : Worker} (after : Worker) (hworker : workers[index]? = some before)
    (hf : f after = f before) :
    ((workers.set index after).map f).sum = (workers.map f).sum := by
  obtain ⟨others, hbefore, hafter⟩ := sum_map_set f hworker
  rw [hbefore, hafter, hf]

theorem sum_map_of_workersDone {α : Type} {f : Worker → Multiset α} (hf : f .done = 0)
    (hdone : state.workersDone = true) : (state.workers.map f).sum = 0 := by
  apply List.sum_eq_zero
  intro x hx
  obtain ⟨worker, hworker, rfl⟩ := List.mem_map.mp hx
  rw [workersDone_iff.mp hdone worker hworker, hf]

/-! ## The books -/

/-- The scans among outcomes. -/
def scans (outcomes : Multiset Outcome) : Multiset FileScan := outcomes.filterMap Except.toOption

/-- The counters, when a stream has come to `outcomes`, skipped `skipped` files and emitted
`emitted` blocks. -/
def tally (outcomes : Multiset Outcome) (skipped emitted : Nat) : Stats where
  filesScanned := (scans outcomes).card
  filesFailed := outcomes.countP fun outcome ↦ outcome.toOption.isNone
  filesSkipped := skipped
  blocksEmitted := emitted
  warnings := (scans outcomes).countP fun scan ↦ !scan.isComplete

theorem scans_cons_ok (scan : FileScan) (outcomes : Multiset Outcome) :
    scans (.ok scan ::ₘ outcomes) = scan ::ₘ scans outcomes :=
  Multiset.filterMap_cons_some _ _ _ rfl

theorem scans_cons_error (error : ExtractError) (outcomes : Multiset Outcome) :
    scans (.error error ::ₘ outcomes) = scans outcomes :=
  Multiset.filterMap_cons_none _ _ rfl

theorem count_tally (outcome : Outcome) (outcomes : Multiset Outcome) (skipped emitted : Nat) :
    State.count outcome (tally outcomes skipped emitted)
      = tally (outcome ::ₘ outcomes) skipped emitted := by
  cases outcome with
  | error error =>
    rw [tally, tally, scans_cons_error, Multiset.countP_cons, State.count]
    simp [Except.toOption]
  | ok scan =>
    rw [tally, tally, scans_cons_ok, Multiset.card_cons, Multiset.countP_cons,
      Multiset.countP_cons, State.count, scan.isSome_diagnostic?]
    simp [Except.toOption]

/-- **Everything that entered a stream is accounted for.** The jobs fed are those worked on, those
skipped, those held by workers and those queued; what came of the jobs worked on is in the counters,
the diagnostics and the blocks, except for what workers have yet to report and to deliver. -/
structure Ledger (plan : Plan) (jobs : List Job) (worked skipped : Multiset Job) (state : State) :
    Prop where
  /-- The feeder feeds the jobs in order, and ends early only when told to stop. -/
  feeding : jobs.drop state.fed = state.feeder.left ∨ state.feeder = .done ∧ state.stopping = true
  /-- Each job fed is in one place. -/
  accounted : ((jobs.take state.fed : List Job) : Multiset Job)
    = worked + skipped + (state.workers.map Worker.held).sum + (state.jobQueue : Multiset Job)
  /-- Jobs are skipped only when the stream is told to stop. -/
  unskipped : state.stopping = false → skipped = 0
  /-- The counters count what came of the jobs. -/
  counted : state.stats = tally (worked.map plan.extract) skipped.card
    (state.delivered ++ state.blockQueue).length
  /-- Each diagnostic is reported once. -/
  noticed : (state.reported : Multiset Diagnostic) + (state.workers.map Worker.notice).sum
    = (worked.map plan.extract).filterMap Outcome.diagnostic?
  /-- Blocks are drawn from the fronts of what was found, and the rest is owed. -/
  drawn : Drawn ((scans (worked.map plan.extract)).map FileScan.blocks)
    (state.delivered ++ state.blockQueue) (state.workers.map Worker.owed).sum

theorem receive_eq (h : Orderly plan state) (block : ExtractedBlock) :
    ∃ consumer taken drained, taken ++ drained = state.delivered ++ [block]
      ∧ state.receive block
        = { state with consumer := consumer, taken := taken, drained := drained } := by
  unfold State.receive
  split
  · next wanted hconsumer =>
    refine ⟨_, _, _, ?_, rfl⟩
    rw [State.delivered, h.undrained hconsumer, List.append_nil, List.append_nil]
  · exact ⟨_, _, _, (List.append_assoc _ _ _).symm, rfl⟩
  · exact ⟨_, _, _, (List.append_assoc _ _ _).symm, rfl⟩

namespace Ledger

variable {worked skipped : Multiset Job}

/-- What the consumer does with the blocks that reach it does not matter, nor that a flag is set. -/
theorem consuming (h : Ledger plan jobs worked skipped state) {consumer : Consumer}
    {blockQueue taken drained : List ExtractedBlock} {cancelled abandoned : Bool}
    (hblocks : taken ++ drained ++ blockQueue = state.delivered ++ state.blockQueue)
    (hstop : state.stopping = true → (cancelled || abandoned) = true) :
    Ledger plan jobs worked skipped { state with
      consumer := consumer, blockQueue := blockQueue, taken := taken, drained := drained
      cancelled := cancelled, abandoned := abandoned } where
  feeding := h.feeding.imp_right fun hdone ↦ ⟨hdone.1, hstop hdone.2⟩
  accounted := h.accounted
  unskipped hgo := by
    refine h.unskipped (Bool.eq_false_iff.mpr ?_)
    intro hstopping
    exact absurd (hstop hstopping) (Bool.eq_false_iff.mp hgo)
  counted := by
    rw [State.delivered, hblocks]
    exact h.counted
  noticed := h.noticed
  drawn := by
    rw [State.delivered, hblocks]
    exact h.drawn

theorem setWorker (h : Ledger plan jobs worked skipped state) {index : Nat} {before after : Worker}
    (hworker : state.workers[index]? = some before) (hheld : after.held = before.held)
    (hnotice : after.notice = before.notice) (howed : after.owed = before.owed) :
    Ledger plan jobs worked skipped (state.setWorker index after) := by
  refine ⟨h.feeding, ?_, h.unskipped, h.counted, ?_, ?_⟩
  · rw [State.setWorker, sum_map_set_of_eq Worker.held after hworker hheld]
    exact h.accounted
  · rw [State.setWorker, sum_map_set_of_eq Worker.notice after hworker hnotice]
    exact h.noticed
  · rw [State.setWorker, sum_map_set_of_eq Worker.owed after hworker howed]
    exact h.drawn

theorem drop_eq (h : Ledger plan jobs worked skipped state) (hfeeder : state.feeder ≠ .done) :
    jobs.drop state.fed = state.feeder.left :=
  h.feeding.resolve_right fun hdone ↦ hfeeder hdone.1

theorem setFeeder (h : Ledger plan jobs worked skipped state) {feeder : Feeder}
    (hfeeding : jobs.drop state.fed = feeder.left ∨ feeder = .done ∧ state.stopping = true) :
    Ledger plan jobs worked skipped { state with feeder := feeder } :=
  ⟨hfeeding, h.accounted, h.unskipped, h.counted, h.noticed, h.drawn⟩

theorem put (h : Ledger plan jobs worked skipped state) {job : Job} {rest : List Job}
    (hfeeder : state.feeder = .sending job rest) :
    Ledger plan jobs worked skipped { state with
      feeder := .checking rest, jobQueue := state.jobQueue ++ [job], fed := state.fed + 1 } := by
  have hdrop := h.drop_eq (by simp [hfeeder])
  rw [hfeeder, Feeder.left] at hdrop
  refine ⟨Or.inl ?_, ?_, h.unskipped, h.counted, h.noticed, h.drawn⟩
  · rw [← List.tail_drop, hdrop]
    rfl
  · have htake : jobs.take (state.fed + 1) = jobs.take state.fed ++ [job] := by
      rw [List.take_add, hdrop, List.take_succ_cons, List.take_zero]
    rw [htake, ← Multiset.coe_add, h.accounted, ← Multiset.coe_add, add_assoc]

theorem take (h : Ledger plan jobs worked skipped state) {index : Nat} {job : Job}
    {queue : List Job} (hworker : state.workers[index]? = some .receiving)
    (hqueue : state.jobQueue = job :: queue) :
    Ledger plan jobs worked skipped
      ({ state with jobQueue := queue }.setWorker index (.checking job)) := by
  obtain ⟨held, hbefore, hafter⟩ := sum_map_set Worker.held hworker
  refine ⟨h.feeding, ?_, h.unskipped, h.counted, ?_, ?_⟩
  · have haccounted := h.accounted
    rw [hbefore, hqueue, ← Multiset.cons_coe, ← Multiset.singleton_add, Worker.held] at haccounted
    rw [State.setWorker, hafter, Worker.held, haccounted]
    abel
  · rw [State.setWorker, sum_map_set_of_eq Worker.notice (.checking job) hworker rfl]
    exact h.noticed
  · rw [State.setWorker, sum_map_set_of_eq Worker.owed (.checking job) hworker rfl]
    exact h.drawn

theorem skip (h : Ledger plan jobs worked skipped state) {index : Nat} {job : Job}
    (hworker : state.workers[index]? = some (.checking job)) (hstop : state.stopping = true) :
    Ledger plan jobs worked (job ::ₘ skipped)
      ({ state with stats.filesSkipped := state.stats.filesSkipped + 1 }.setWorker index
        .receiving) := by
  obtain ⟨held, hbefore, hafter⟩ := sum_map_set Worker.held hworker
  refine ⟨h.feeding, ?_, ?_, ?_, ?_, ?_⟩
  · have haccounted := h.accounted
    rw [hbefore, Worker.held] at haccounted
    rw [State.setWorker, hafter, Worker.held, haccounted, ← Multiset.singleton_add]
    abel
  · intro hgo
    exact absurd hstop (Bool.eq_false_iff.mp hgo)
  · rw [Multiset.card_cons, State.setWorker, h.counted]
    rfl
  · rw [State.setWorker, sum_map_set_of_eq Worker.notice .receiving hworker rfl]
    exact h.noticed
  · rw [State.setWorker, sum_map_set_of_eq Worker.owed .receiving hworker rfl]
    exact h.drawn

theorem drawn_cons {outcomes : Multiset Outcome} {drawn : List ExtractedBlock}
    {left : Multiset (List ExtractedBlock)} (outcome : Outcome)
    (h : Drawn ((scans outcomes).map FileScan.blocks) drawn left) :
    Drawn ((scans (outcome ::ₘ outcomes)).map FileScan.blocks) drawn
      (remaining outcome.blocks + left) := by
  cases outcome with
  | error error =>
    rw [scans_cons_error, Outcome.blocks, remaining, if_pos rfl, zero_add]
    exact h
  | ok scan =>
    rw [scans_cons_ok, Multiset.map_cons]
    exact (h.cons scan.blocks).settle

theorem extract (h : Ledger plan jobs worked skipped state) {index : Nat} {job : Job}
    (hworker : state.workers[index]? = some (.working job)) :
    Ledger plan jobs (job ::ₘ worked) skipped
      ({ state with stats := State.count (plan.extract job) state.stats }.setWorker index
        (State.followUp (plan.extract job))) := by
  obtain ⟨held, hheld, hheld'⟩ := sum_map_set Worker.held hworker
  obtain ⟨notice, hnotice, hnotice'⟩ := sum_map_set Worker.notice hworker
  obtain ⟨owed, howed, howed'⟩ := sum_map_set Worker.owed hworker
  refine ⟨h.feeding, ?_, h.unskipped, ?_, ?_, ?_⟩
  · have haccounted := h.accounted
    rw [hheld, Worker.held] at haccounted
    rw [State.setWorker, hheld', held_followUp, haccounted, ← Multiset.singleton_add]
    abel
  · rw [Multiset.map_cons, ← count_tally, State.setWorker, h.counted]
    rfl
  · have hnoticed := h.noticed
    rw [hnotice, Worker.notice, zero_add] at hnoticed
    rw [Multiset.map_cons, Multiset.filterMap_cons, ← hnoticed, State.setWorker, hnotice',
      notice_followUp, add_left_comm]
  · have hdrawn := h.drawn
    rw [howed, Worker.owed, zero_add] at hdrawn
    rw [Multiset.map_cons, State.setWorker, howed', owed_followUp]
    exact drawn_cons _ hdrawn

theorem report (h : Ledger plan jobs worked skipped state) {index : Nat} {diagnostic : Diagnostic}
    {blocks : List ExtractedBlock}
    (hworker : state.workers[index]? = some (.reporting diagnostic blocks)) :
    Ledger plan jobs worked skipped
      ({ state with reported := state.reported ++ [diagnostic] }.setWorker index
        (.delivering blocks)) := by
  obtain ⟨notice, hnotice, hnotice'⟩ := sum_map_set Worker.notice hworker
  refine ⟨h.feeding, ?_, h.unskipped, h.counted, ?_, ?_⟩
  · rw [State.setWorker, sum_map_set_of_eq Worker.held (.delivering blocks) hworker rfl]
    exact h.accounted
  · have hnoticed := h.noticed
    rw [hnotice, Worker.notice] at hnoticed
    rw [State.setWorker, hnotice', ← hnoticed, ← Multiset.coe_add, Worker.notice, zero_add]
    exact add_assoc _ _ _
  · rw [State.setWorker, sum_map_set_of_eq Worker.owed (.delivering blocks) hworker rfl]
    exact h.drawn

theorem deliver (h : Ledger plan jobs worked skipped state) {index : Nat} {block : ExtractedBlock}
    {blocks : List ExtractedBlock} {consumer : Consumer}
    {blockQueue taken drained : List ExtractedBlock}
    (hworker : state.workers[index]? = some (.delivering (block :: blocks)))
    (hblocks : taken ++ drained ++ blockQueue = state.delivered ++ state.blockQueue ++ [block]) :
    Ledger plan jobs worked skipped
      ({ state with
        consumer := consumer, blockQueue := blockQueue, taken := taken, drained := drained
        stats.blocksEmitted := state.stats.blocksEmitted + 1 }.setWorker index
          (.delivering blocks)) := by
  obtain ⟨owed, howed, howed'⟩ := sum_map_set Worker.owed hworker
  refine ⟨h.feeding, ?_, h.unskipped, ?_, ?_, ?_⟩
  · rw [State.setWorker, sum_map_set_of_eq Worker.held (.delivering blocks) hworker rfl]
    exact h.accounted
  · rw [State.setWorker, State.delivered, hblocks, List.length_append, h.counted]
    rfl
  · rw [State.setWorker, sum_map_set_of_eq Worker.notice (.delivering blocks) hworker rfl]
    exact h.noticed
  · have hdrawn := h.drawn
    rw [howed, Worker.owed, remaining, if_neg (List.cons_ne_nil _ _), Multiset.singleton_add]
      at hdrawn
    rw [State.setWorker, State.delivered, hblocks, howed', Worker.owed]
    exact hdrawn.next.settle

theorem unentered (hworked : state.workedJob? action next = none)
    (hskipped : state.skippedJob? action next = none) (h : Ledger plan jobs worked skipped next) :
    Ledger plan jobs ((state.workedJob? action next).toList + worked)
      ((state.skippedJob? action next).toList + skipped) next := by
  rw [hworked, hskipped, Option.toList_none, Multiset.coe_nil, zero_add, zero_add]
  exact h

theorem idle {index : Nat} {worker : Worker} (hworker : state.workers[index]? = some worker)
    (hheld : worker.held = 0) (h : Ledger plan jobs worked skipped next) :
    Ledger plan jobs ((state.workedJob? (.work index) next).toList + worked)
      ((state.skippedJob? (.work index) next).toList + skipped) next := by
  refine unentered ?_ ?_ h
  · cases worker <;> simp_all [State.workedJob?, Worker.held]
  · cases worker <;> simp_all [State.skippedJob?, Worker.held]

/-- **A step keeps the ledger**, with the job it extracts or skips, if it does, entered. -/
theorem step (horderly : Orderly plan state) (h : Ledger plan jobs worked skipped state)
    (hstep : Step plan state action next) :
    Ledger plan jobs ((state.workedJob? action next).toList + worked)
      ((state.skippedJob? action next).toList + skipped) next := by
  cases hstep with
  | feederEnds hfeeder | feederPicks hfeeder =>
    have hdrop := h.drop_eq (by simp [hfeeder])
    rw [hfeeder] at hdrop
    exact unentered rfl rfl (h.setFeeder (Or.inl hdrop))
  | feederStops _ hstop => exact unentered rfl rfl (h.setFeeder (Or.inr ⟨rfl, hstop⟩))
  | feederFails hfeeder hworkers =>
    exact absurd (hfeeder.symm.trans (horderly.feeder_eq_done hworkers).1) (by simp)
  | feederPuts hfeeder => exact unentered rfl rfl (h.put hfeeder)
  | takesJob hworker hqueue => exact idle hworker rfl (h.take hworker hqueue)
  | takesHanded hworker hqueue hfeeder =>
    -- a job handed over is a job put on the empty queue and taken from it at once
    have htaken := (h.put hfeeder).take hworker (congrArg (· ++ _) hqueue)
    rw [← hqueue] at htaken
    exact idle hworker rfl htaken
  | workerEnds hworker => exact idle hworker rfl (h.setWorker hworker rfl rfl rfl)
  | skips hworker hstop =>
    simpa [State.workedJob?, State.skippedJob?, hworker, hstop] using h.skip hworker hstop
  | begins hworker hgo =>
    refine unentered ?_ ?_ (h.setWorker hworker rfl rfl rfl)
    · simp [State.workedJob?, hworker]
    · simp [State.skippedJob?, hworker, hgo]
  | extracts hworker =>
    simpa [State.workedJob?, State.skippedJob?, hworker] using h.extract hworker
  | reports hworker => exact idle hworker rfl (h.report hworker)
  | finishes hworker => exact idle hworker rfl (h.setWorker hworker rfl rfl rfl)
  | workerFails hworker hconsumer =>
    exact absurd hconsumer (horderly.consumer_ne_done hworker (by simp))
  | puts hworker => exact idle hworker rfl (h.deliver hworker (List.append_assoc _ _ _).symm)
  | @hands index block blocks hworker hcapacity =>
    -- without room on the queue nothing is on it, so the block does not overtake another
    have hempty : state.blockQueue = [] :=
      List.eq_nil_of_length_eq_zero (Nat.le_zero.mp (hcapacity ▸ horderly.room))
    obtain ⟨consumer, taken, drained, hblocks, heq⟩ := receive_eq (horderly.books _ _) block
    rw [heq]
    refine idle hworker rfl (h.deliver hworker ?_)
    rw [hempty, hblocks, List.append_nil, List.append_nil]
    rfl
  | @receives block queue _ hqueue =>
    obtain ⟨consumer, taken, drained, hblocks, heq⟩ :=
      receive_eq (horderly.shorten hqueue) block
    rw [heq]
    refine unentered rfl rfl (h.consuming ?_ id)
    rw [hblocks, hqueue, List.append_assoc, List.singleton_append]
    rfl
  | leaves =>
    -- leaving may set a flag, and never takes one back
    refine unentered rfl rfl (h.consuming rfl ?_)
    intro hstop
    rw [← Bool.or_assoc]
    exact Bool.or_eq_true_iff.mpr (Or.inl hstop)
  | consumerEnds => exact unentered rfl rfl (h.consuming rfl id)
  | cancels => exact unentered rfl rfl (h.consuming rfl fun _ ↦ rfl)

end Ledger

end Stream

end CommentBlocks
