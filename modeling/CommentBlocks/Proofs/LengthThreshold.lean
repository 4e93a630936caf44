import CommentBlocks.Proofs.LineEntries
import Mathlib.Data.List.Induction

/-!
# Raising the length threshold

A comment is kept if its content has as many bytes as the configuration asks for. One might expect
that a higher threshold only takes blocks away, but a line has a single block, that of the last
comment kept on it. A short comment that is no longer kept gives the line back to a longer one that
stands before it.

So the comments that count on a line are listed first (`keptOn`), and the block of the line is that
of the last of them (`lookup_foldl_eq_getLast?`). A higher threshold thins this list out
(`keptOn_of_le`), and everything else is about the last member of a list and of a part of it.
-/

namespace CommentBlocks

/-! ## The comments of a line -/

theorem Comment.content?_eq_some_iff {config : ScanConfig} {comment : Comment} {content : Text} :
    comment.content? config = some content
      ↔ layout? comment.lines = some content ∧ config.minContentLength ≤ content.byteLength := by
  rw [Comment.content?, Option.filter_eq_some_iff, decide_eq_true_iff]

/-- The comments kept that begin on a line, in the order they stand. -/
def keptOn (config : ScanConfig) (comments : List Comment) (line : Nat) : List Comment :=
  comments.filter fun comment ↦ comment.line = line && (comment.content? config).isSome

theorem mem_keptOn_iff {config : ScanConfig} {comments : List Comment} {line : Nat}
    {comment : Comment} :
    comment ∈ keptOn config comments line
      ↔ comment ∈ comments ∧ comment.line = line ∧ (comment.content? config).isSome = true := by
  rw [keptOn, List.mem_filter, Bool.and_eq_true, decide_eq_true_iff]

theorem keptOn_concat (config : ScanConfig) (comments : List Comment) (comment : Comment)
    (line : Nat) :
    keptOn config (comments ++ [comment]) line
      = keptOn config comments line ++ keptOn config [comment] line :=
  List.filter_append ..

/-- **The block of a line is that of the last comment kept on it.** -/
theorem lookup_foldl_eq_getLast? (config : ScanConfig) (comments : List Comment) (line : Nat) :
    (comments.foldl (enterComment config) []).lookup line
      = (keptOn config comments line).getLast?.bind (Comment.content? config) := by
  induction comments using List.reverseRecOn with
  | nil => rfl
  | append_singleton comments comment ih =>
    rw [List.foldl_append, List.foldl_cons, List.foldl_nil, keptOn_concat, enterComment]
    rcases hcontent : comment.content? config with - | content
    · have hdropped : keptOn config [comment] line = [] := by simp [keptOn, hcontent]
      rw [hdropped, List.append_nil]
      exact ih
    · dsimp only
      rw [lookup_enterLine]
      by_cases hline : line = comment.line
      · have hkept : keptOn config [comment] line = [comment] := by
          simp [keptOn, hcontent, hline]
        rw [if_pos hline, hkept, List.getLast?_concat, Option.bind_some, hcontent]
      · have hother : keptOn config [comment] line = [] := by
          simp [keptOn, Ne.symm hline]
        rw [if_neg hline, hother, List.append_nil]
        exact ih

theorem mem_recordedBlocks_iff {config : ScanConfig} {origin : Origin} {comments : List Comment}
    {block : ExtractedBlock} :
    block ∈ recordedBlocks config origin comments
      ↔ block.origin = origin
        ∧ ∃ comment, comment.content? config = some block.content
          ∧ (keptOn config comments block.startLine).getLast? = some comment := by
  have hdescending := descending_foldl config comments (List.Pairwise.nil : Descending [])
  have hentry : ∀ line content,
      (line, content) ∈ comments.foldl (enterComment config) []
        ↔ ∃ comment, comment.content? config = some content
          ∧ (keptOn config comments line).getLast? = some comment := by
    intro line content
    rw [← lookup_eq_some_iff hdescending, lookup_foldl_eq_getLast?, Option.bind_eq_some_iff]
    exact exists_congr fun _ ↦ and_comm
  rw [recordedBlocks, List.mem_map]
  constructor
  · rintro ⟨⟨line, content⟩, hmem, rfl⟩
    exact ⟨rfl, (hentry line content).mp (List.mem_reverse.mp hmem)⟩
  · rintro ⟨horigin, hlast⟩
    refine ⟨(block.startLine, block.content), ?_, by rw [← horigin]⟩
    exact List.mem_reverse.mpr ((hentry _ _).mpr hlast)

/-! ## Two thresholds -/

section Thresholds

variable {low high : Nat} {comments : List Comment} {line : Nat}

theorem keptOn_of_le (h : low ≤ high) (comments : List Comment) (line : Nat) :
    keptOn ⟨high⟩ comments line
      = (keptOn ⟨low⟩ comments line).filter fun comment ↦ (comment.content? ⟨high⟩).isSome := by
  rw [keptOn, keptOn, List.filter_filter]
  congr 1
  funext comment
  rcases hhigh : comment.content? ⟨high⟩ with - | content
  · simp
  · -- what is long enough for the higher threshold is so for the lower one
    obtain ⟨hlayout, hlength⟩ := Comment.content?_eq_some_iff.mp hhigh
    have hlow : comment.content? ⟨low⟩ = some content :=
      Comment.content?_eq_some_iff.mpr ⟨hlayout, Nat.le_trans h hlength⟩
    simp [hlow]

theorem getLast?_keptOn_of_kept (h : low ≤ high) {comment : Comment}
    (hlast : (keptOn ⟨low⟩ comments line).getLast? = some comment)
    (hkept : (comment.content? ⟨high⟩).isSome = true) :
    (keptOn ⟨high⟩ comments line).getLast? = some comment := by
  obtain ⟨front, hfront⟩ := List.getLast?_eq_some_iff.mp hlast
  rw [keptOn_of_le h, hfront, List.filter_append, List.filter_singleton, hkept]
  exact List.getLast?_concat

/-- The last comment of a line stays the last, or it is kept no more and the one that comes to be
the last stands before it. -/
theorem eq_or_sublist_of_getLast?_keptOn (h : low ≤ high) {earlier later : Comment}
    (hlater : (keptOn ⟨low⟩ comments line).getLast? = some later)
    (hearlier : (keptOn ⟨high⟩ comments line).getLast? = some earlier) :
    earlier = later
      ∨ later.content? ⟨high⟩ = none ∧ [earlier, later].Sublist (keptOn ⟨low⟩ comments line) := by
  rcases hdropped : later.content? ⟨high⟩ with - | content
  · obtain ⟨front, hfront⟩ := List.getLast?_eq_some_iff.mp hlater
    have hkept := List.mem_of_getLast? hearlier
    rw [keptOn_of_le h, hfront, List.filter_append, List.filter_singleton, hdropped,
      Option.isSome_none, cond_false, List.append_nil] at hkept
    have hbefore : earlier ∈ front := List.mem_of_mem_filter hkept
    rw [hfront]
    exact Or.inr ⟨rfl, (List.singleton_sublist.mpr hbefore).append (List.Sublist.refl [later])⟩
  · have hsame := getLast?_keptOn_of_kept h hlater (Option.isSome_of_eq_some hdropped)
    exact Or.inl (Option.some_inj.mp (hearlier.symm.trans hsame))

end Thresholds

namespace Source

/-- **A higher threshold drops short blocks, and may bring longer ones back.** Compared with a lower
threshold, a scan stops at the same open block if there is one, and has blocks on no other lines.
Blocks that are long enough for the higher threshold are the same. Where the two have different
blocks on a line, a comment too short for the higher threshold had replaced a longer one that stands
before it on the same line. -/
theorem scan_of_threshold_le (source : Source) (profile : Profile) {low high : Nat}
    (h : low ≤ high) :
    let scan := source.scan profile ⟨low⟩
    let strict := source.scan profile ⟨high⟩
    strict.unterminated = scan.unterminated
      ∧ (∀ other ∈ strict.blocks, ∃ block ∈ scan.blocks, block.startLine = other.startLine)
      ∧ (∀ block ∈ scan.blocks, high ≤ block.content.byteLength → block ∈ strict.blocks)
      ∧ ∀ block ∈ scan.blocks, ∀ other ∈ strict.blocks, block.startLine = other.startLine →
        block.content ≠ other.content →
        block.content.byteLength < high ∧ high ≤ other.content.byteLength
          ∧ ∃ earlier later : Comment,
            [earlier, later].Sublist (survey profile.blocks source.cursor).comments
              ∧ earlier.line = other.startLine ∧ later.line = block.startLine
              ∧ layout? earlier.lines = some other.content
              ∧ layout? later.lines = some block.content := by
  intro scan strict
  refine ⟨rfl, ?_, ?_, ?_⟩
  · intro other hother
    obtain ⟨-, earlier, -, hlast⟩ := mem_recordedBlocks_iff.mp hother
    -- the comment is kept by the lower threshold too, so some comment is the last on its line
    have hkept := List.mem_of_getLast? hlast
    rw [keptOn_of_le h] at hkept
    have hne := List.ne_nil_of_mem (List.mem_of_mem_filter hkept)
    obtain ⟨later, hlater⟩ := Option.isSome_iff_exists.mp (List.getLast?_isSome.mpr hne)
    obtain ⟨-, -, hsome⟩ := mem_keptOn_iff.mp (List.mem_of_getLast? hlater)
    obtain ⟨content, hcontent⟩ := Option.isSome_iff_exists.mp hsome
    exact ⟨⟨source.origin, other.startLine, content⟩,
      mem_recordedBlocks_iff.mpr ⟨rfl, later, hcontent, hlater⟩, rfl⟩
  · intro block hblock hlength
    obtain ⟨horigin, comment, hcontent, hlast⟩ := mem_recordedBlocks_iff.mp hblock
    have hkept : comment.content? ⟨high⟩ = some block.content :=
      Comment.content?_eq_some_iff.mpr ⟨(Comment.content?_eq_some_iff.mp hcontent).1, hlength⟩
    refine mem_recordedBlocks_iff.mpr ⟨horigin, comment, hkept, ?_⟩
    exact getLast?_keptOn_of_kept h hlast (Option.isSome_of_eq_some hkept)
  · intro block hblock other hother hline hne
    obtain ⟨-, later, hlater, hlast⟩ := mem_recordedBlocks_iff.mp hblock
    obtain ⟨-, earlier, hearlier, hstrict⟩ := mem_recordedBlocks_iff.mp hother
    rw [← hline] at hstrict
    obtain ⟨hearlierLayout, hlong⟩ := Comment.content?_eq_some_iff.mp hearlier
    obtain ⟨hlaterLayout, -⟩ := Comment.content?_eq_some_iff.mp hlater
    rcases eq_or_sublist_of_getLast?_keptOn h hlast hstrict with rfl | ⟨hdropped, hsublist⟩
    · exact absurd (Option.some_inj.mp (hlaterLayout.symm.trans hearlierLayout)) hne
    · have hshort : block.content.byteLength < high := by
        by_contra hlength
        have hkept : later.content? ⟨high⟩ = some block.content :=
          Comment.content?_eq_some_iff.mpr ⟨hlaterLayout, Nat.not_lt.mp hlength⟩
        exact Option.some_ne_none _ (hkept.symm.trans hdropped)
      obtain ⟨-, hearlierLine, -⟩ := mem_keptOn_iff.mp (hsublist.subset List.mem_cons_self)
      obtain ⟨-, hlaterLine, -⟩ := mem_keptOn_iff.mp (List.mem_of_getLast? hlast)
      exact ⟨hshort, hlong, earlier, later, hsublist.trans List.filter_sublist,
        hearlierLine.trans hline, hlaterLine, hearlierLayout, hlaterLayout⟩

/-- A long comment, a short one behind it on the same line, and one more further down. The lower
threshold shows the short one, the higher one the long one. -/
theorem scan_of_threshold_le_brings_back :
    let profile : Profile := ⟨"x", "X", [], [.comment "/*" "*/", .verbatim "\"" "\""]⟩
    let source : Source := ⟨"/*longer*/ /*short*/\n/*further down*/ \"".toList, ⟨"a"⟩, .zero⟩
    let scan := source.scan profile ⟨4⟩
    let strict := source.scan profile ⟨6⟩
    scan.blocks = [⟨⟨"a"⟩, 1, "short".toList⟩, ⟨⟨"a"⟩, 2, "further down".toList⟩]
      ∧ strict.blocks = [⟨⟨"a"⟩, 1, "longer".toList⟩, ⟨⟨"a"⟩, 2, "further down".toList⟩]
      ∧ scan.isComplete = false
      ∧ strict.unterminated = scan.unterminated
      ∧ (⟨⟨"a"⟩, 2, "further down".toList⟩ : ExtractedBlock) ∈ strict.blocks
      ∧ ∃ earlier later : Comment,
        [earlier, later].Sublist (survey profile.blocks source.cursor).comments
          ∧ layout? earlier.lines = some "longer".toList
          ∧ layout? later.lines = some "short".toList := by
  intro profile source scan strict
  have hscan : scan.blocks = [⟨⟨"a"⟩, 1, "short".toList⟩, ⟨⟨"a"⟩, 2, "further down".toList⟩] := by
    decide +kernel +zetaReduce
  have hstrict :
      strict.blocks = [⟨⟨"a"⟩, 1, "longer".toList⟩, ⟨⟨"a"⟩, 2, "further down".toList⟩] := by
    decide +kernel +zetaReduce
  obtain ⟨hunterminated, -, hkept, hreplaced⟩ :=
    scan_of_threshold_le source profile (by decide : 4 ≤ 6)
  have hfurther := hkept ⟨⟨"a"⟩, 2, "further down".toList⟩ (by rw [hscan]; decide) (by decide)
  obtain ⟨-, -, earlier, later, hsublist, -, -, hearlier, hlater⟩ :=
    hreplaced ⟨⟨"a"⟩, 1, "short".toList⟩ (by rw [hscan]; decide)
      ⟨⟨"a"⟩, 1, "longer".toList⟩ (by rw [hstrict]; decide) rfl (by decide)
  exact ⟨hscan, hstrict, by decide +kernel +zetaReduce, hunterminated, hfurther,
    earlier, later, hsublist, hearlier, hlater⟩

end Source

end CommentBlocks
