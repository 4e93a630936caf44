import CommentBlocks.Proofs.StreamDelivery

/-!
# Streams do not get stuck

Three kinds of actors wait for each other through two bounded queues, and each queue is closed by
the last actor that leaves it. Could all of them wait at once, or one of them send to nobody?

The waits form a chain. The feeder waits for a worker to take a job, a worker waits for the consumer
to take a block, and the consumer waits for nobody as long as there is a block to take or an end to
see. So if anyone waits, the last one in the chain can act (`enabled_of_worker`). That the chain is
never cut, because someone left too early, is what `Orderly` says about the order in which the
actors finish.
-/

namespace CommentBlocks

namespace Stream

variable {plan : Plan} {state next : State} {action : Action}

/-- An actor can act. The caller, who may cancel at any time, does not count. -/
def Enabled (plan : Plan) (state : State) : Prop :=
  ∃ action, action ≠ .cancel ∧ (state.act plan action).isSome = true

theorem enabled_of_feed (h : (state.feed plan).isSome = true) : Enabled plan state :=
  ⟨.feed, by simp, h⟩

theorem enabled_of_work (index : Nat) (h : (state.work plan index).isSome = true) :
    Enabled plan state :=
  ⟨.work index, by simp, h⟩

/-! ## The consumer -/

/-- A consumer that has not finished can act, unless it waits for a block while workers may still
deliver one. -/
theorem enabled_of_consumer (hconsumer : state.consumer ≠ .done)
    (h : state.isReceiving = false ∨ state.blockQueue ≠ [] ∨ state.workersDone = true) :
    Enabled plan state := by
  refine ⟨.consume, by simp, ?_⟩
  rw [State.act, State.consume]
  cases hreceiving : state.isReceiving with
  | false => simp [hconsumer]
  | true =>
    cases hqueue : state.blockQueue with
    | cons block queue => rfl
    | nil =>
      have hdone : state.workersDone = true := by simpa [hreceiving, hqueue] using h
      by_cases hdraining : state.consumer = .draining
      · simp [hdone, hdraining]
      · simp [hdone, hdraining]

theorem enabled_of_delivering (horderly : Orderly plan state) {index : Nat}
    {block : ExtractedBlock} {blocks : List ExtractedBlock}
    (hworker : state.workers[index]? = some (.delivering (block :: blocks))) :
    Enabled plan state := by
  have hconsumer := horderly.consumer_ne_done hworker (by simp)
  cases hreceiving : state.isReceiving with
  | false => exact enabled_of_consumer hconsumer (Or.inl hreceiving)
  | true =>
    by_cases hqueue : state.blockQueue = []
    · -- there is room on the queue, or there never is and then the consumer's hand is free
      apply enabled_of_work index
      by_cases hroom : 0 < plan.blockCapacity
      · simp [State.work, hworker, hconsumer, State.deliver?, hqueue, hroom]
      · have hzero : plan.blockCapacity = 0 := Nat.eq_zero_of_not_pos hroom
        simp [State.work, hworker, hconsumer, State.deliver?, hqueue, hzero, hreceiving]
    · exact enabled_of_consumer hconsumer (Or.inr (Or.inl hqueue))

/-! ## The feeder and the workers -/

/-- A worker that waits for a job does not wait in vain: the feeder can act, or hands it a job, or
has finished. -/
theorem enabled_of_receiving {index : Nat} (hworker : state.workers[index]? = some .receiving) :
    Enabled plan state := by
  cases hqueue : state.jobQueue with
  | cons job queue =>
    apply enabled_of_work index
    simp [State.work, hworker, State.takeJob?, hqueue]
  | nil =>
    cases hfeeder : state.feeder with
    | done =>
      apply enabled_of_work index
      simp [State.work, hworker, State.takeJob?, hqueue, hfeeder]
    | checking jobs =>
      apply enabled_of_feed
      cases jobs <;> simp [State.feed, hfeeder]
    | sending job jobs =>
      by_cases hroom : plan.jobCapacity = 0
      · apply enabled_of_work index
        simp [State.work, hworker, State.takeJob?, hqueue, hfeeder, hroom]
      · apply enabled_of_feed
        have hworkers := workersDone_eq_false hworker (by simp)
        simp [State.feed, hfeeder, hworkers, hqueue, Nat.pos_of_ne_zero hroom]

/-- **As long as a worker has not finished, someone can act.** -/
theorem enabled_of_worker (horderly : Orderly plan state) {index : Nat} {worker : Worker}
    (hworker : state.workers[index]? = some worker) (hne : worker ≠ .done) :
    Enabled plan state := by
  cases worker with
  | receiving => exact enabled_of_receiving hworker
  | checking job =>
    apply enabled_of_work index
    by_cases hstop : state.stopping = true
    · simp [State.work, hworker, hstop]
    · simp [State.work, hworker, hstop]
  | working job | reporting diagnostic blocks =>
    apply enabled_of_work index
    simp [State.work, hworker]
  | delivering blocks =>
    cases blocks with
    | nil =>
      apply enabled_of_work index
      simp [State.work, hworker]
    | cons block blocks => exact enabled_of_delivering horderly hworker
  | done => exact absurd rfl hne

/-! ## Where a run ends -/

/-- When the consumer has finished, it has left nothing on the queue. -/
def Emptied (state : State) : Prop := state.consumer = .done → state.blockQueue = []

@[simp] theorem receive_consumer_eq_done_iff {block : ExtractedBlock} :
    (state.receive block).consumer = .done ↔ state.consumer = .done := by
  unfold State.receive
  split <;> simp_all

theorem Emptied.step (horderly : Orderly plan state) (h : Emptied state)
    (hstep : Step plan state action next) : Emptied next := by
  cases hstep with
  | puts hworker => exact fun hdone ↦ absurd hdone (horderly.consumer_ne_done hworker (by simp))
  | hands hworker =>
    intro hdone
    have hconsumer : state.consumer = .done := by simpa [State.setWorker] using hdone
    exact absurd hconsumer (horderly.consumer_ne_done hworker (by simp))
  | receives hreceiving =>
    intro hdone
    have hconsumer : state.consumer = .done := by simpa using hdone
    simp [State.isReceiving, hconsumer] at hreceiving
  | leaves => exact fun hdone ↦ absurd hdone (by simp [State.leave])
  | consumerEnds _ hqueue => exact fun _ ↦ hqueue
  | feederEnds | feederStops | feederPicks | feederFails | feederPuts | takesJob | takesHanded
  | workerEnds | skips | begins | extracts | reports | finishes | workerFails | cancels => exact h

theorem not_enabled_of_isTerminal (h : state.isTerminal = true) : ¬Enabled plan state := by
  simp only [State.isTerminal, Bool.and_eq_true, decide_eq_true_iff] at h
  obtain ⟨⟨⟨hfeeder, hworkers⟩, hconsumer⟩, -⟩ := h
  rintro ⟨action, hne, hact⟩
  cases action with
  | feed => simp [State.act, State.feed, hfeeder] at hact
  | work index =>
    cases hworker : state.workers[index]? with
    | none => simp [State.act, State.work, hworker] at hact
    | some worker =>
      have hdone := workersDone_iff.mp hworkers worker (List.mem_of_getElem? hworker)
      simp [State.act, State.work, hworker, hdone] at hact
  | consume => simp [State.act, State.consume, State.isReceiving, hconsumer] at hact
  | cancel => exact hne rfl

theorem isTerminal_of_not_enabled (horderly : Orderly plan state) (hemptied : Emptied state)
    (h : ¬Enabled plan state) : state.isTerminal = true := by
  have hworkers : state.workersDone = true := by
    rw [workersDone_iff]
    intro worker hmem
    obtain ⟨index, hworker⟩ := List.mem_iff_getElem?.mp hmem
    by_contra hne
    exact h (enabled_of_worker horderly hworker hne)
  have hconsumer : state.consumer = .done := by
    by_contra hne
    exact h (enabled_of_consumer hne (Or.inr (Or.inr hworkers)))
  simp [State.isTerminal, (horderly.feeder_eq_done hworkers).1, hworkers, hconsumer,
    hemptied hconsumer]

/-- **A stream never gets stuck, and nobody sends in vain.** In every run, with any number of
workers, any room on the queues and a flag set at any moment or never: unless the feeder, the
workers and the consumer have all finished and the block queue is empty, one of them can act; while
the feeder has a job to send there is a worker to take it, and while a worker has a block to deliver
the consumer is there. -/
theorem never_stuck (plan : Plan) (jobs : List Job) {workers : Nat} (hworkers : 0 < workers)
    (wanted : Option Nat) (cancelled : Bool) {state : State}
    (hrun : Reachable plan (.start jobs workers wanted cancelled) state) :
    (state.isTerminal = true ↔ ¬∃ action, action ≠ .cancel ∧ (state.act plan action).isSome = true)
      ∧ (∀ job rest, state.feeder = .sending job rest → state.workersDone = false)
      ∧ ∀ (index : Nat) (block : ExtractedBlock) (blocks : List ExtractedBlock),
        state.workers[index]? = some (.delivering (block :: blocks)) →
          state.consumer ≠ .done := by
  obtain ⟨horderly, hemptied⟩ : Orderly plan state ∧ Emptied state := by
    refine hrun.invariant (fun state ↦ Orderly plan state ∧ Emptied state) ?_ ?_
    · exact ⟨orderly_start hworkers, fun hdone ↦ absurd hdone (by simp [State.start])⟩
    · rintro state next action ⟨horderly, hemptied⟩ hstep
      exact ⟨horderly.step hstep, hemptied.step horderly hstep⟩
  refine ⟨⟨not_enabled_of_isTerminal, isTerminal_of_not_enabled horderly hemptied⟩, ?_, ?_⟩
  · intro job rest hfeeder
    rw [Bool.eq_false_iff]
    intro hdone
    exact absurd (hfeeder.symm.trans (horderly.feeder_eq_done hdone).1) (by simp)
  · intro index block blocks hworker
    exact horderly.consumer_ne_done hworker (by simp)

/-- Without room on either queue, a worker holds a block that the consumer did not ask for. Still
someone can act: the consumer, who walks away and then receives what is left. -/
theorem never_stuck_no_room :
    let plan : Plan := ⟨fun job ↦ .ok ⟨job.origin, [⟨job.origin, 1, ['x']⟩], none⟩, 0, 0, true⟩
    let job : Job := ⟨⟨"a"⟩, [], none, none⟩
    ∃ state, Reachable plan (.start [job] 1 (some 0) false) state
      ∧ state.workers = [.delivering [⟨⟨"a"⟩, 1, ['x']⟩]] ∧ state.isTerminal = false
      ∧ state.consumer ≠ .done
      ∧ ∃ action, action ≠ .cancel ∧ (state.act plan action).isSome = true := by
  intro plan job
  let state : State :=
    { feeder := .checking [], workers := [.delivering [⟨⟨"a"⟩, 1, ['x']⟩]]
      consumer := .taking (some 0), fed := 1, stats := ⟨1, 0, 0, 0, 0⟩ }
  have hrun : Reachable plan (.start [job] 1 (some 0) false) state :=
    reachable_iff_exists_foldlM.mpr ⟨[.feed, .work 0, .work 0, .work 0], rfl⟩
  obtain ⟨hterminal, -, hconsumer⟩ := never_stuck plan [job] Nat.one_pos (some 0) false hrun
  refine ⟨state, hrun, rfl, rfl, hconsumer 0 _ _ rfl, ?_⟩
  by_contra hstuck
  exact Bool.false_ne_true (hterminal.mpr hstuck)

end Stream

end CommentBlocks
