import CommentBlocks.Proofs.StreamLedger

/-!
# What a stream delivers

A stream that is not told to stop does, whatever the schedule, what a batch does: in every state in
which feeder and workers have finished and the block queue is empty, each block of each file has
been delivered once and in the order of its file, each diagnostic has been reported once, and the
counters agree with both.

The proof reads the ledger in such a state. Nothing is held or queued, and nothing was skipped, so
the jobs worked on are the jobs given.
-/

namespace CommentBlocks

namespace Stream

variable {plan : Plan} {state : State} {jobs : List Job} {workers : Nat} {wanted : Option Nat}
  {cancelled : Bool}

/-! ## The invariants in every run -/

theorem orderly_start (hworkers : 0 < workers) :
    Orderly plan (State.start jobs workers wanted cancelled) where
  staffed hnil := by
    rw [State.start, List.replicate_eq_nil_iff] at hnil
    exact absurd hnil hworkers.ne'
  closed hdone := absurd ((List.mem_replicate.mp hdone).2) (by simp)
  outlasts hconsumer := absurd hconsumer (by simp [State.start])
  undrained _ := rfl
  room := Nat.zero_le _

theorem ledger_start : Ledger plan jobs 0 0 (State.start jobs workers wanted cancelled) := by
  have hsum {α : Type} (f : Worker → Multiset α) (hf : f .receiving = 0) :
      ((List.replicate workers Worker.receiving).map f).sum = 0 := by
    rw [List.map_replicate, hf, List.sum_replicate, nsmul_zero]
  refine ⟨Or.inl rfl, ?_, fun _ ↦ rfl, rfl, ?_, ?_⟩
  · rw [State.start, hsum Worker.held rfl]
    rfl
  · rw [State.start, hsum Worker.notice rfl]
    rfl
  · rw [State.start, hsum Worker.owed rfl]
    exact Drawn.start

/-- **The ledger is kept in every run.** -/
theorem Reachable.ledger (hworkers : 0 < workers)
    (h : Reachable plan (State.start jobs workers wanted cancelled) state) :
    Orderly plan state ∧ ∃ worked skipped, Ledger plan jobs worked skipped state := by
  refine h.invariant
    (fun state ↦ Orderly plan state ∧ ∃ worked skipped, Ledger plan jobs worked skipped state)
    ⟨orderly_start hworkers, 0, 0, ledger_start⟩ ?_
  rintro state next action ⟨horderly, worked, skipped, hledger⟩ hstep
  exact ⟨horderly.step hstep, _, _, hledger.step horderly hstep⟩

/-! ## Where a run ends -/

theorem Ledger.of_done {worked skipped : Multiset Job} (horderly : Orderly plan state)
    (h : Ledger plan jobs worked skipped state) (hgo : state.stopping = false)
    (hdone : state.workersDone = true) : worked = jobs ∧ skipped = 0 := by
  obtain ⟨hfeeder, hqueue⟩ := horderly.feeder_eq_done hdone
  have hskipped := h.unskipped hgo
  have hdrop : jobs.drop state.fed = [] := by
    rcases h.feeding with hdrop | ⟨-, hstop⟩
    · rw [hdrop, hfeeder, Feeder.left]
    · exact absurd hstop (Bool.eq_false_iff.mp hgo)
  have haccounted := h.accounted
  rw [List.take_of_length_le (List.drop_eq_nil_iff.mp hdrop), hqueue, hskipped,
    sum_map_of_workersDone rfl hdone, add_zero, add_zero, Multiset.coe_nil, add_zero] at haccounted
  exact ⟨haccounted.symm, hskipped⟩

theorem Ledger.accounted_of_done {worked skipped : Multiset Job} (horderly : Orderly plan state)
    (h : Ledger plan jobs worked skipped state) (hdone : state.workersDone = true) :
    ((jobs.take state.fed : List Job) : Multiset Job) = worked + skipped := by
  rw [h.accounted, sum_map_of_workersDone rfl hdone, (horderly.feeder_eq_done hdone).2,
    Multiset.coe_nil, add_zero, add_zero]

theorem Ledger.drawn_of_done {worked skipped : Multiset Job}
    (h : Ledger plan jobs worked skipped state)
    (hdone : state.workersDone = true) (hqueue : state.blockQueue = []) :
    Drawn ((scans (worked.map plan.extract)).map FileScan.blocks) state.delivered 0 := by
  have hdrawn := h.drawn
  rw [sum_map_of_workersDone rfl hdone, hqueue, List.append_nil] at hdrawn
  exact hdrawn

theorem Ledger.noticed_of_done {worked skipped : Multiset Job}
    (h : Ledger plan jobs worked skipped state) (hdone : state.workersDone = true) :
    (state.reported : Multiset Diagnostic)
      = (worked.map plan.extract).filterMap Outcome.diagnostic? := by
  rw [← h.noticed, sum_map_of_workersDone rfl hdone, add_zero]

theorem tally_coe (outcomes : List Outcome) (skipped emitted : Nat) :
    tally outcomes skipped emitted = {
      filesScanned := outcomes.countP fun outcome ↦ outcome.toOption.isSome
      filesFailed := outcomes.countP fun outcome ↦ outcome.toOption.isNone
      filesSkipped := skipped
      blocksEmitted := emitted
      warnings := (outcomes.filterMap Except.toOption).countP fun scan ↦ !scan.isComplete } := by
  have hscans : scans outcomes = (outcomes.filterMap Except.toOption : List FileScan) := rfl
  rw [tally, hscans, Multiset.coe_card, Multiset.coe_countP, Multiset.coe_countP,
    List.length_filterMap_eq_countP]
  simp only [Bool.decide_eq_true]

def blockLists (outcomes : List Outcome) : List (List ExtractedBlock) :=
  (outcomes.filterMap Except.toOption).map FileScan.blocks

/-- **A stream delivers what a batch does.** In every run, under every schedule, with any number of
workers and any room on the queues: when the workers, and so the feeder, have finished without being
told to, and the block queue is empty, the blocks delivered interleave those of the files, the
diagnostics reported are those of the outcomes in some order, and the counters count the
outcomes. -/
theorem delivers_batch (extractor : Extractor) (abandons : Bool) (jobs : List Job)
    {workers : Nat} (hworkers : 0 < workers) (wanted : Option Nat) {final : State}
    (hrun : Reachable (extractor.plan abandons) (.start jobs workers wanted false) final)
    (hgo : final.stopping = false) (hdone : final.workersDone = true)
    (hqueue : final.blockQueue = []) :
    let outcomes := extractor.extractBatch jobs
    final.feeder = .done
      ∧ (Interleaving (blockLists outcomes) final.delivered
        ∧ final.delivered.Perm (blockLists outcomes).flatten
        ∧ ∀ blocks ∈ blockLists outcomes, blocks.Sublist final.delivered)
      ∧ final.reported.Perm (outcomes.filterMap Outcome.diagnostic?)
      ∧ final.stats = {
          filesScanned := outcomes.countP fun outcome ↦ outcome.toOption.isSome
          filesFailed := outcomes.countP fun outcome ↦ outcome.toOption.isNone
          filesSkipped := 0
          blocksEmitted := final.delivered.length
          warnings :=
            (outcomes.filterMap Except.toOption).countP fun scan ↦ !scan.isComplete } := by
  obtain ⟨horderly, worked, skipped, hledger⟩ := hrun.ledger hworkers
  obtain ⟨rfl, rfl⟩ := hledger.of_done horderly hgo hdone
  -- the ledger speaks of multisets; those of lists compute as the lists do
  have hmap : Multiset.map (extractor.plan abandons).extract (jobs : Multiset Job)
      = (extractor.extractBatch jobs : Multiset Outcome) := rfl
  have hinterleaving : Interleaving (blockLists (extractor.extractBatch jobs)) final.delivered :=
    hledger.drawn_of_done hdone hqueue
  have hcounted := hledger.counted
  rw [hqueue, List.append_nil, hmap, tally_coe] at hcounted
  exact ⟨(horderly.feeder_eq_done hdone).1,
    ⟨hinterleaving, hinterleaving.perm_flatten, fun _ ↦ hinterleaving.sublist⟩,
    Multiset.coe_eq_coe.mp (hledger.noticed_of_done hdone), hcounted⟩

/-- The step that extracts a job depends on the plan only through what comes of the job. -/
theorem act_of_working {plan : Plan} {state : State} {index : Nat} {job : Job} {outcome : Outcome}
    (hworker : state.workers[index]? = some (.working job)) (h : plan.extract job = outcome) :
    state.act plan (.work index)
      = some ({ state with stats := State.count outcome state.stats }.setWorker index
        (State.followUp outcome)) := by
  rw [State.act, State.work, hworker, ← h]

/-- Two files, each with two comments, of which the second leaves a string open. Two workers, no room
for jobs and room for one block: the workers deliver in turn, and the string is reported. -/
theorem delivers_batch_in_turn :
    let profile : Profile := ⟨"x", "X", [], [.line "//", .verbatim "\"" "\""]⟩
    let extractor : Extractor :=
      ⟨.ofProfiles [profile], { jobCapacity := 0, resultCapacity := 1, scan := ⟨0⟩ }⟩
    let job (name text : String) : Job := ⟨⟨name⟩, Utf8.encode text.toList, some "x", none⟩
    let jobs := [job "a" "//1\n;\n//3\n", job "b" "//1\n;\n//3\n\""]
    let block (name : String) (line : Nat) (text : String) : ExtractedBlock :=
      ⟨⟨name⟩, line, text.toList⟩
    let warning := Diagnostic.warning .unterminatedBlock
      |>.withMessage "unterminated string block"
      |>.atPosition ⟨"b"⟩ ⟨3, 0, 10⟩
      |>.withNote "the rest of the file was not scanned"
    ∃ final, Reachable (extractor.plan false) (.start jobs 2 none false) final
      ∧ final.delivered
        = [block "a" 1 "1\n", block "b" 1 "1\n", block "a" 3 "3\n", block "b" 3 "3\n"]
      ∧ final.reported = [warning]
      ∧ final.stats = ⟨2, 0, 0, 4, 1⟩
      ∧ Interleaving (blockLists (extractor.extractBatch jobs)) final.delivered
      ∧ [warning].Perm ((extractor.extractBatch jobs).filterMap Outcome.diagnostic?) := by
  intro profile extractor job jobs block warning
  have hprofile (name text : String) : extractor.resolveLanguage (job name text) = .ok profile := by
    simp [extractor, job, profile, Extractor.resolveLanguage, Registry.get?, Registry.ofProfiles,
      Std.HashMap.getElem_insertIfNew]
  let first := job "a" "//1\n;\n//3\n"
  let second := job "b" "//1\n;\n//3\n\""
  have hfirst : (extractor.plan false).extract first
      = .ok ⟨⟨"a"⟩, [block "a" 1 "1\n", block "a" 3 "3\n"], none⟩ := by
    change extractor.extractFile first = _
    rw [Extractor.extractFile, hprofile]
    decide +kernel +zetaReduce
  have hsecond : (extractor.plan false).extract second
      = .ok ⟨⟨"b"⟩, [block "b" 1 "1\n", block "b" 3 "3\n"], some ⟨⟨3, 0, 10⟩, .string⟩⟩ := by
    change extractor.extractFile second = _
    rw [Extractor.extractFile, hprofile]
    decide +kernel +zetaReduce
  -- each worker is handed a job, and the workers extract them one after the other
  let taking : List Action := [.feed, .work 0, .feed, .work 1, .feed, .work 0, .work 1]
  -- the queue has room for one block, so that the workers deliver in turn
  let delivering : List Action :=
    [.work 1, .work 0, .consume, .work 1, .consume, .work 0, .consume, .work 1, .consume, .work 0,
      .work 1, .work 0, .work 1]
  let taken : State :=
    { feeder := .done, workers := [.working first, .working second], consumer := .taking none
      fed := 2 }
  let halfway : State :=
    { taken with
      workers := [.delivering [block "a" 1 "1\n", block "a" 3 "3\n"], .working second]
      stats := ⟨1, 0, 0, 0, 0⟩ }
  let extracted : State :=
    { taken with
      workers := [.delivering [block "a" 1 "1\n", block "a" 3 "3\n"],
        .reporting warning [block "b" 1 "1\n", block "b" 3 "3\n"]]
      stats := ⟨2, 0, 0, 0, 1⟩ }
  let final : State :=
    { taken with
      workers := [.done, .done], stats := ⟨2, 0, 0, 4, 1⟩, reported := [warning]
      taken := [block "a" 1 "1\n", block "b" 1 "1\n", block "a" 3 "3\n", block "b" 3 "3\n"] }
  have htaken : taking.foldlM (State.act (extractor.plan false)) (.start jobs 2 none false)
      = some taken := rfl
  have hhalfway : taken.act (extractor.plan false) (.work 0) = some halfway :=
    act_of_working rfl hfirst
  have hextracted : halfway.act (extractor.plan false) (.work 1) = some extracted :=
    act_of_working rfl hsecond
  have hfinal : delivering.foldlM (State.act (extractor.plan false)) extracted = some final := rfl
  have hreachable : Reachable (extractor.plan false) (.start jobs 2 none false) final :=
    .trans (.act (.act (reachable_iff_exists_foldlM.mpr ⟨taking, htaken⟩) hhalfway) hextracted)
      (reachable_iff_exists_foldlM.mpr ⟨delivering, hfinal⟩)
  have hbatch := delivers_batch extractor false jobs Nat.two_pos none hreachable rfl rfl rfl
  exact ⟨final, hreachable, rfl, rfl, rfl, hbatch.2.1.1, hbatch.2.2.1⟩

end Stream

end CommentBlocks
