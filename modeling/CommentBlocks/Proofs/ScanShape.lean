import CommentBlocks.Proofs.ContentText
import CommentBlocks.Proofs.LineEntries
import CommentBlocks.Proofs.SeekPoints

/-!
# The shape of a scan

A scan lists comments by the line they begin on. Here is what such a list looks like and where its
contents come from: the lines ascend between the first line of the source and the line where the
scan stopped, every content is as long as was asked and begins with something to read, and all
contents together, one after the other, are a subsequence of the text. No text is invented, told
twice or taken out of order.

The comments come in the order of the text, and this is what has to survive the two steps that
follow. Laying out keeps to the lines of one comment. Entering by line replaces entries, but only
ever the newest: comments begin on lines that do not descend, so a line that is taken is the line
of the last entry (`contents_enterLine_sublist`).
-/

open scoped List

namespace CommentBlocks

/-! ## From one seek point to another -/

def Comment.text (comment : Comment) : Text := comment.lines.flatten

/-- How the comments found between two seek points lie in the text between them. -/
structure Gathered (start : Place) (found : List Comment) (place : Place) : Prop where
  /-- Their texts are a subsequence of what was read. -/
  texts : ∃ read, start.rest = read ++ place.rest ∧ found.flatMap Comment.text <+ read
  /-- They begin on the lines that were passed. -/
  lines : ∀ comment ∈ found,
    start.position.line ≤ comment.start.line ∧ comment.start.line ≤ place.position.line
  /-- They are in the order of their lines. -/
  ordered : found.Pairwise fun first second ↦ first.start.line ≤ second.start.line
  /-- Lines are passed forward. -/
  forward : start.position.line ≤ place.position.line

/-- A turn reads on, and the comment it finds begins where it does and has its text from there. -/
theorem Place.exists_read_of_turn {blocks : List Block} {place next : Place}
    {comment : Option Comment} (h : place.turn blocks = .moved comment next) :
    ∃ read, place.rest = read ++ next.rest ∧ place.position.line ≤ next.position.line
      ∧ ∀ found ∈ comment, found.start = place.position ∧ found.text <+ read := by
  have hafter : ∀ read rest : Text, place.rest = read ++ rest → (place.after read).rest = rest := by
    intro read rest hrest
    rw [Place.after, hrest, List.drop_left]
  rcases turn_eq_moved_cases h with
    ⟨c, rest, hrest, -, rfl, rfl⟩ | ⟨opened, opener, ending, rest, hrest, -, hending, rfl, rfl⟩
  · refine ⟨[c], ?_, Position.line_le_line_advanceText _ _, ?_⟩
    · rw [hafter [c] rest hrest, hrest, List.singleton_append]
    · intro found hfound
      exact absurd hfound (Option.not_mem_none _)
  · rw [← List.append_assoc] at hrest
    refine ⟨opener ++ ending.read, ?_, Position.line_le_line_advanceText _ _, ?_⟩
    · rw [hafter _ rest hrest, hrest]
    · intro found hfound
      obtain ⟨-, hfound⟩ := Option.mem_ite_none_right.mp hfound
      rw [← Option.mem_some_iff.mp hfound]
      exact ⟨rfl, (OpenBlock.flatten_lines_sublist_read hending).trans
        (List.sublist_append_right _ _)⟩

theorem Gathered.turn {blocks : List Block} {start place next : Place} {found : List Comment}
    {comment : Option Comment} (h : Gathered start found place)
    (hturn : place.turn blocks = .moved comment next) :
    Gathered start (found ++ comment.toList) next := by
  obtain ⟨before, hbefore, htexts⟩ := h.texts
  obtain ⟨read, hread, hforward, hcomment⟩ := Place.exists_read_of_turn hturn
  have hnew : ∀ new ∈ comment.toList, new.start.line = place.position.line := by
    intro new hmem
    rw [(hcomment new (Option.mem_toList.mp hmem)).1]
  refine ⟨⟨before ++ read, ?_, ?_⟩, ?_, ?_, Nat.le_trans h.forward hforward⟩
  · rw [hbefore, hread, List.append_assoc]
  · rw [List.flatMap_append]
    refine htexts.append ?_
    cases comment with
    | none => exact List.nil_sublist _
    | some new => simpa using (hcomment new rfl).2
  · intro other hother
    rcases List.mem_append.mp hother with hold | hmem
    · exact ⟨(h.lines other hold).1, Nat.le_trans (h.lines other hold).2 hforward⟩
    · rw [hnew other hmem]
      exact ⟨h.forward, hforward⟩
  · refine List.pairwise_append.mpr ⟨h.ordered, ?_, ?_⟩
    · cases comment with
      | none => exact List.Pairwise.nil
      | some new => exact List.pairwise_singleton _ _
    · intro old hold new hmem
      rw [hnew new hmem]
      exact (h.lines old hold).2

/-- **The comments found on the way to a seek point lie in the text before it, in order.** -/
theorem Reaches.gathered {blocks : List Block} {start place : Place} {found : List Comment}
    (h : Reaches blocks start found place) : Gathered start found place := by
  induction h with
  | start => exact ⟨⟨[], rfl, List.nil_sublist _⟩, by simp, List.Pairwise.nil, Nat.le_refl _⟩
  | turn _ hturn ih => exact ih.turn hturn

/-! ## Entries -/

/-- The contents that are entered, from the first line to the last. -/
def contents (entries : List (Nat × Text)) : Text := (entries.reverse.map (·.2)).flatten

theorem contents_cons (entry : Nat × Text) (entries : List (Nat × Text)) :
    contents (entry :: entries) = contents entries ++ entry.2 := by
  simp [contents]

/-- A line that none of the entries is below is entered in front of them, at most in place of the
first. -/
theorem contents_enterLine_sublist {line : Nat} {entries : List (Nat × Text)}
    (h : ∀ entry ∈ entries, entry.1 ≤ line) (content : Text) :
    contents (enterLine line content entries) <+ contents entries ++ content := by
  cases entries with
  | nil => simp [enterLine, contents]
  | cons entry entries =>
    obtain ⟨other, text⟩ := entry
    have hle : other ≤ line := h _ List.mem_cons_self
    rw [enterLine]
    split
    · rw [contents_cons]
    · rw [if_pos (by omega), contents_cons, contents_cons]
      exact (List.sublist_append_left _ _).append (List.Sublist.refl _)

section Enter

variable (config : ScanConfig)

theorem mem_enterComment {comment : Comment} {entries : List (Nat × Text)} {entry : Nat × Text}
    (h : entry ∈ enterComment config entries comment) :
    entry ∈ entries ∨ entry.1 = comment.line ∧ comment.content? config = some entry.2 := by
  unfold enterComment at h
  split at h
  · next content hcontent =>
    rcases mem_enterLine h with rfl | hentry
    · exact Or.inr ⟨rfl, hcontent⟩
    · exact Or.inl hentry
  · exact Or.inl h

theorem mem_foldl_enterComment {comments : List Comment} {entries : List (Nat × Text)}
    {entry : Nat × Text} (h : entry ∈ comments.foldl (enterComment config) entries) :
    entry ∈ entries
      ∨ ∃ comment ∈ comments, entry.1 = comment.line ∧ comment.content? config = some entry.2 := by
  induction comments generalizing entries with
  | nil => exact Or.inl h
  | cons comment comments ih =>
    rcases ih h with hentry | ⟨other, hother, hkept⟩
    · rcases mem_enterComment config hentry with hold | hkept
      · exact Or.inl hold
      · exact Or.inr ⟨comment, List.mem_cons_self, hkept⟩
    · exact Or.inr ⟨other, List.mem_cons_of_mem _ hother, hkept⟩

theorem sublist_of_content? {comment : Comment} {content : Text}
    (h : comment.content? config = some content) : content <+ comment.text := by
  exact sublist_of_layout? (Option.filter_eq_some_iff.mp h).1

theorem contents_enterComment_sublist {comment : Comment} {entries : List (Nat × Text)}
    (h : ∀ entry ∈ entries, entry.1 ≤ comment.line) :
    contents (enterComment config entries comment) <+ contents entries ++ comment.text := by
  unfold enterComment
  split
  · next content hcontent =>
    exact (contents_enterLine_sublist h content).trans
      ((List.Sublist.refl _).append (sublist_of_content? config hcontent))
  · exact List.sublist_append_left _ _

/-- **Comments in the order of their lines are entered in that order.** -/
theorem contents_foldl_sublist {comments : List Comment} {entries : List (Nat × Text)}
    (hordered : comments.Pairwise fun first second ↦ first.start.line ≤ second.start.line)
    (hentries : ∀ entry ∈ entries, ∀ comment ∈ comments, entry.1 ≤ comment.line) :
    contents (comments.foldl (enterComment config) entries)
      <+ contents entries ++ comments.flatMap Comment.text := by
  induction comments generalizing entries with
  | nil => simp
  | cons comment comments ih =>
    obtain ⟨hfirst, hothers⟩ := List.pairwise_cons.mp hordered
    have hbelow : ∀ entry ∈ enterComment config entries comment, ∀ other ∈ comments,
        entry.1 ≤ other.line := by
      intro entry hentry other hother
      rcases mem_enterComment config hentry with hold | ⟨hline, -⟩
      · exact hentries entry hold other (List.mem_cons_of_mem _ hother)
      · rw [hline]
        exact Nat.succ_le_succ (hfirst other hother)
    have hcomment := contents_enterComment_sublist config fun entry hentry ↦
      hentries entry hentry comment List.mem_cons_self
    rw [List.foldl_cons, List.flatMap_cons, ← List.append_assoc]
    exact (ih hothers hbelow).trans (hcomment.append (List.Sublist.refl _))

end Enter

/-! ## Scans -/

namespace Source

variable (source : Source) (profile : Profile) (config : ScanConfig)

theorem exists_comment_of_mem_blocks {block : ExtractedBlock}
    (h : block ∈ (source.scan profile config).blocks) :
    ∃ comment ∈ (survey profile.blocks source.cursor).comments,
      block.startLine = comment.line ∧ comment.content? config = some block.content := by
  rw [scan_blocks, recordedBlocks, List.mem_map] at h
  obtain ⟨entry, hentry, rfl⟩ := h
  rcases mem_foldl_enterComment config (List.mem_reverse.mp hentry) with hnil | hcomment
  · exact absurd hnil List.not_mem_nil
  · exact hcomment

theorem flatten_contents_blocks (comments : List Comment) (origin : Origin) :
    ((recordedBlocks config origin comments).map ExtractedBlock.content).flatten
      = contents (comments.foldl (enterComment config) []) := by
  rw [recordedBlocks, List.map_map]
  rfl

/-- **The shape of a scan.** The blocks ascend in their lines, which are those of the source up to
where the scan stopped. Every content is long enough and begins with a character that is not white
space. All contents in order are a subsequence of the text. -/
theorem scan_shape :
    Ascending (source.scan profile config).blocks
      ∧ (∀ block ∈ (source.scan profile config).blocks,
        source.start.line + 1 ≤ block.startLine
          ∧ (∀ stop ∈ (source.scan profile config).unterminated,
            block.startLine ≤ stop.position.displayLine)
          ∧ config.minContentLength ≤ block.content.byteLength
          ∧ ∃ c rest, block.content = c :: rest ∧ isWhiteSpace c = false)
      ∧ ((source.scan profile config).blocks.map ExtractedBlock.content).flatten
        <+ source.text := by
  obtain ⟨place, hreaches, hend⟩ := Reaches.exists_end profile.blocks source.cursor
  have hgathered := hreaches.gathered
  refine ⟨ascending_recordedBlocks _ _ _, ?_, ?_⟩
  · intro block hblock
    obtain ⟨comment, hcomment, hline, hcontent⟩ :=
      source.exists_comment_of_mem_blocks profile config hblock
    obtain ⟨hlayout, hlength⟩ := Option.filter_eq_some_iff.mp hcontent
    obtain ⟨hfirst, hlast⟩ := hgathered.lines comment hcomment
    refine ⟨?_, ?_, of_decide_eq_true hlength, exists_cons_of_layout? hlayout⟩
    · rw [hline]
      exact Nat.succ_le_succ hfirst
    · -- a scan that stops does so at the seek point where its run ends
      intro stop hstop
      have hstopped : (survey profile.blocks source.cursor).unterminated = some stop := hstop
      rw [hstopped] at hend
      rw [hline, Place.position_of_turn_eq_stopped hend]
      exact Nat.succ_le_succ hlast
  · obtain ⟨read, hread, htexts⟩ := hgathered.texts
    have hcontents : contents ((survey profile.blocks source.cursor).comments.foldl
        (enterComment config) []) <+ (survey profile.blocks source.cursor).comments.flatMap
          Comment.text :=
      contents_foldl_sublist config hgathered.ordered fun entry hentry ↦
        absurd hentry List.not_mem_nil
    rw [scan_blocks, flatten_contents_blocks]
    have hbegin : read <+ source.text := by
      rw [show source.text = read ++ place.rest from hread]
      exact List.sublist_append_left _ _
    exact (hcontents.trans htexts).trans hbegin

end Source

end CommentBlocks
