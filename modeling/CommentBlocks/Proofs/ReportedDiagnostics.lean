import CommentBlocks.Proofs.CollectedDiagnostics
import CommentBlocks.Proofs.StreamDelivery

/-!
# The diagnostics of a stream

Workers report diagnostics as they find them, so the order in which a sink sees them is that of the
schedule. A collecting sink undoes this: when the documents of the jobs differ, what it gives back
is the diagnostics of the batch, sorted by document, and its counts are those of the stream.

That the places differ is a fact about extraction. A job makes at most one diagnostic, and it is
about the document of the job (`origin?_of_diagnostic?`, `origin_extractFile`).
-/

namespace CommentBlocks

/-! ## Which document an outcome is about -/

namespace Extractor

variable {job : Job} {error : ExtractError}

theorem origin_of_resolveLanguage {extractor : Extractor}
    (h : extractor.resolveLanguage job = .error error) : error.origin = job.origin := by
  unfold resolveLanguage at h
  dsimp only at h
  split at h
  · simp at h
  · injection h with h
    rw [← h, ExtractError.origin]

theorem origin_of_decodeJob (h : decodeJob job = .error error) : error.origin = job.origin := by
  unfold decodeJob at h
  cases hdecode : decodeFile job.bytes job.encoding with
  | ok decoded => simp [hdecode, Except.mapError] at h
  | error fault =>
    rw [hdecode] at h
    injection h with h
    rw [← h]
    cases fault <;> rfl

theorem origin_of_jobSource_error {bytes : Bytes} (h : jobSource job bytes = .error error) :
    error.origin = job.origin := by
  unfold jobSource Source.ofBytes at h
  dsimp only at h
  split at h
  · injection h with h
    rw [← h, ExtractError.origin, SourceError.origin]
  · split at h
    · simp [Except.mapError] at h
    · injection h with h
      rw [← h, ExtractError.origin, SourceError.origin]

theorem origin_of_jobSource_ok {bytes : Bytes} {source : Source}
    (h : jobSource job bytes = .ok source) : source.origin = job.origin := by
  unfold jobSource Source.ofBytes at h
  dsimp only at h
  split at h
  · simp [Except.mapError] at h
  · split at h
    · injection h with h
      rw [← h]
    · simp [Except.mapError] at h

end Extractor

namespace Outcome

def origin : Outcome → Origin
  | .error error => error.origin
  | .ok scan => scan.origin

end Outcome

/-- **What comes of a job is about the document of the job**, at whichever stage it ends. -/
theorem Extractor.origin_extractFile (extractor : Extractor) (job : Job) :
    (extractor.extractFile job).origin = job.origin := by
  unfold extractFile
  cases hprofile : extractor.resolveLanguage job with
  | error error => exact origin_of_resolveLanguage hprofile
  | ok profile =>
    cases hdecode : decodeJob job with
    | error error => exact origin_of_decodeJob hdecode
    | ok decoded =>
      change Outcome.origin (jobSource job decoded.2 >>= fun source ↦
        pure (source.scan profile extractor.config.scan)) = job.origin
      cases hsource : jobSource job decoded.2 with
      | error error => exact origin_of_jobSource_error hsource
      | ok source => exact origin_of_jobSource_ok hsource

/-! ## The diagnostic of an outcome -/

theorem ExtractError.isError_diagnostic (error : ExtractError) :
    error.diagnostic.isError = true := by
  rcases error with (_ | _) | _ | _ | _ <;> rfl

theorem ExtractError.isWarning_diagnostic (error : ExtractError) :
    error.diagnostic.isWarning = false := by
  rcases error with (_ | _) | _ | _ | _ <;> rfl

theorem ExtractError.origin?_diagnostic (error : ExtractError) :
    error.diagnostic.origin? = some error.origin := by
  rcases error with (_ | _) | _ | _ | _ <;> rfl

namespace Outcome

theorem origin?_of_diagnostic? {outcome : Outcome} {diagnostic : Diagnostic}
    (h : outcome.diagnostic? = some diagnostic) : diagnostic.origin? = some outcome.origin := by
  cases outcome with
  | error error =>
    injection h with h
    rw [← h]
    exact error.origin?_diagnostic
  | ok scan =>
    obtain ⟨block, -, rfl⟩ := Option.map_eq_some_iff.mp h
    rfl

theorem isError_diagnostic? (outcome : Outcome) :
    (outcome.diagnostic?.map Diagnostic.isError).getD false = outcome.toOption.isNone := by
  cases outcome with
  | error error => exact error.isError_diagnostic
  | ok scan =>
    have hscan : Outcome.diagnostic? (.ok scan) = scan.diagnostic? := rfl
    rw [hscan, FileScan.diagnostic?]
    cases scan.unterminated <;> rfl

theorem isWarning_diagnostic? (outcome : Outcome) :
    (outcome.diagnostic?.map Diagnostic.isWarning).getD false
      = (outcome.toOption.map fun scan ↦ !scan.isComplete).getD false := by
  cases outcome with
  | error error => exact error.isWarning_diagnostic
  | ok scan =>
    have hscan : Outcome.diagnostic? (.ok scan) = scan.diagnostic? := rfl
    have hoption : Except.toOption (Except.ok scan : Outcome) = some scan := rfl
    rw [hscan, hoption, FileScan.diagnostic?, Option.map_some, FileScan.isComplete]
    cases scan.unterminated <;> rfl

end Outcome

/-! ## The diagnostics of a batch -/

namespace Extractor

def batchDiagnostics (extractor : Extractor) (jobs : List Job) : List Diagnostic :=
  (extractor.extractBatch jobs).filterMap Outcome.diagnostic?

theorem countP_isError_batchDiagnostics (extractor : Extractor) (jobs : List Job) :
    (extractor.batchDiagnostics jobs).countP Diagnostic.isError
      = (extractor.extractBatch jobs).countP fun outcome ↦ outcome.toOption.isNone := by
  rw [batchDiagnostics, List.countP_filterMap]
  simp only [Outcome.isError_diagnostic?]

theorem countP_isWarning_batchDiagnostics (extractor : Extractor) (jobs : List Job) :
    (extractor.batchDiagnostics jobs).countP Diagnostic.isWarning
      = ((extractor.extractBatch jobs).filterMap Except.toOption).countP
        fun scan ↦ !scan.isComplete := by
  rw [batchDiagnostics, List.countP_filterMap, List.countP_filterMap]
  simp only [Outcome.isWarning_diagnostic?]

theorem pairwise_origin?_batchDiagnostics (extractor : Extractor) {jobs : List Job}
    (h : (jobs.map Job.origin).Nodup) :
    (extractor.batchDiagnostics jobs).Pairwise fun a b ↦ a.origin? ≠ b.origin? := by
  rw [batchDiagnostics, extractBatch, List.pairwise_filterMap, List.pairwise_map]
  refine (List.pairwise_map.mp h).imp ?_
  intro job other hne a ha b hb heq
  rw [Outcome.origin?_of_diagnostic? ha, Outcome.origin?_of_diagnostic? hb, origin_extractFile,
    origin_extractFile] at heq
  exact hne (Option.some.inj heq)

end Extractor

namespace Stream

/-! ## What a sink has collected -/

/-- What a stream that was not told to stop has reported and counted when the workers have
finished. -/
theorem reported_perm {extractor : Extractor} {abandons : Bool} {jobs : List Job} {workers : Nat}
    (hworkers : 0 < workers) {wanted : Option Nat} {final : State}
    (hrun : Reachable (extractor.plan abandons) (.start jobs workers wanted false) final)
    (hgo : final.stopping = false) (hdone : final.workersDone = true) :
    final.reported.Perm (extractor.batchDiagnostics jobs)
      ∧ final.stats.filesFailed = (extractor.batchDiagnostics jobs).countP Diagnostic.isError
      ∧ final.stats.warnings = (extractor.batchDiagnostics jobs).countP Diagnostic.isWarning := by
  obtain ⟨horderly, worked, skipped, hledger⟩ := hrun.ledger hworkers
  obtain ⟨rfl, rfl⟩ := hledger.of_done horderly hgo hdone
  have hmap : Multiset.map (extractor.plan abandons).extract (jobs : Multiset Job)
      = (extractor.extractBatch jobs : Multiset Outcome) := rfl
  have hcounted := hledger.counted
  rw [hmap, tally_coe] at hcounted
  refine ⟨Multiset.coe_eq_coe.mp (hledger.noticed_of_done hdone), ?_, ?_⟩
  · rw [hcounted, extractor.countP_isError_batchDiagnostics]
  · rw [hcounted, extractor.countP_isWarning_batchDiagnostics]

/-- **What is reported does not depend on the schedule.** A queue gives back the same list for any
two orders of arrival if different diagnostics have different places. So, when jobs about different
documents are streamed into a sink and nobody tells the stream to stop, the sink gives back, however
the actors were scheduled, the diagnostics of the batch in the order of their documents, and it has
counted an error for each file that failed and a warning for each scan that stopped early. -/
theorem reports_whatever_the_schedule :
    (∀ xs ys : List Diagnostic, xs.Perm ys →
      (∀ a ∈ xs, ∀ b ∈ xs, a ≠ b → a.sortKey ≠ b.sortKey) →
      (DiagnosticQueue.empty.extend xs).flush.1 = (DiagnosticQueue.empty.extend ys).flush.1)
    ∧ ∀ (extractor : Extractor) (abandons : Bool) (jobs : List Job) (workers : Nat)
        (wanted : Option Nat) (final : State),
      (jobs.map Job.origin).Nodup → 0 < workers →
      Reachable (extractor.plan abandons) (.start jobs workers wanted false) final →
      final.stopping = false → final.workersDone = true →
      let sink := DiagnosticQueue.empty.extend final.reported
      sink.flush.1.Perm ((extractor.extractBatch jobs).filterMap Outcome.diagnostic?)
        ∧ sink.flush.1.Pairwise (fun a b ↦ compare a.origin? b.origin? = .lt)
        ∧ sink.errorCount = final.stats.filesFailed
        ∧ sink.warningCount = final.stats.warnings := by
  constructor
  · intro xs ys hperm hplaces
    refine DiagnosticQueue.flush_extend_of_perm hperm ?_
    intro a ha b hb hkey
    by_contra hne
    exact hplaces a ha b hb hne hkey
  · intro extractor abandons jobs workers wanted final horigins hworkers hrun hgo hdone sink
    obtain ⟨hreported, hfailed, hwarnings⟩ := reported_perm hworkers hrun hgo hdone
    have hdistinct : final.reported.Pairwise fun a b ↦ a.origin? ≠ b.origin? :=
      (hreported.pairwise_iff Ne.symm).mpr (extractor.pairwise_origin?_batchDiagnostics horigins)
    -- diagnostics about different documents differ, so the sink drops nothing
    have hnodup : final.reported.Nodup := hdistinct.imp fun hne heq ↦ hne (congrArg _ heq)
    have hheld := DiagnosticQueue.toList_extend_perm hnodup
    have hflush := DiagnosticQueue.flush_extend_perm hnodup
    have hholds := DiagnosticQueue.holds_extend final.reported
    refine ⟨hflush.trans hreported, ?_, ?_, ?_⟩
    · refine ((DiagnosticQueue.pairwise_sortByLocation _).and
        ((hflush.pairwise_iff Ne.symm).mpr hdistinct)).imp ?_
      rintro a b ⟨hle, hne⟩
      exact Diagnostic.compare_origin?_eq_lt hle hne
    · rw [hholds.errors, hheld.countP_eq, hreported.countP_eq, hfailed]
    · rw [hholds.warnings, hheld.countP_eq, hreported.countP_eq, hwarnings]

/-- Two files whose names have no extension, of which the second is reported first. The sink gives
back the first before the second. -/
theorem reports_whatever_the_schedule_second_first :
    let extractor : Extractor := ⟨.builtin, {}⟩
    let job (name : String) : Job := ⟨⟨name⟩, [], none, none⟩
    let diagnostic (name : String) : Diagnostic :=
      (ExtractError.unsupportedLanguage ⟨name⟩ none).diagnostic
    let sink := DiagnosticQueue.empty.extend [diagnostic "b", diagnostic "a"]
    ∃ final, Reachable (extractor.plan false) (.start [job "a", job "b"] 2 none false) final
      ∧ final.reported = [diagnostic "b", diagnostic "a"]
      ∧ final.stats.filesFailed = 2
      ∧ sink.flush.1 = (DiagnosticQueue.empty.extend [diagnostic "a", diagnostic "b"]).flush.1
      ∧ sink.flush.1.Pairwise (fun a b ↦ compare a.origin? b.origin? = .lt)
      ∧ sink.errorCount = 2 := by
  intro extractor job diagnostic sink
  -- each worker takes a job; the second is through with its own before the first extracts
  let actions : List Action :=
    [.feed, .feed, .feed, .feed, .feed, .work 0, .work 1, .work 0, .work 1, .work 1, .work 1,
      .work 1, .work 1, .work 0, .work 0, .work 0, .work 0]
  let final : State :=
    { feeder := .done, workers := [.done, .done], consumer := .taking none, fed := 2
      stats := ⟨0, 2, 0, 0, 0⟩, reported := [diagnostic "b", diagnostic "a"] }
  have hrun : actions.foldlM (State.act (extractor.plan false))
      (.start [job "a", job "b"] 2 none false) = some final := by decide +kernel
  have hreachable := reachable_iff_exists_foldlM.mpr ⟨actions, hrun⟩
  have hsink := reports_whatever_the_schedule.2 extractor false _ 2 none final (by decide)
    Nat.two_pos hreachable rfl rfl
  refine ⟨final, hreachable, rfl, rfl, ?_, hsink.2.1, hsink.2.2.1⟩
  exact reports_whatever_the_schedule.1 _ _ (List.Perm.swap _ _ _) (by decide)

end Stream

end CommentBlocks
