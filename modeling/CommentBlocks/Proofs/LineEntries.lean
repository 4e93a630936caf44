import CommentBlocks.Comment.Scan
import Mathlib.Data.List.Basic

/-!
# Comments by line

A scan enters the comments it keeps into a list of lines and contents. The list is a finite map from
lines to contents: it is sorted by line, so that no line occurs twice (`descending_foldl`), and
looking up a line gives what was entered there last (`lookup_enterLine`). Both hold whatever is
entered, in whatever order.

Blocks are the same map, turned around. `blockOn?` looks one up, and a list of blocks that is sorted
by line is told by what is on each line.
-/

namespace CommentBlocks

/-! ## Entries -/

def Descending (entries : List (Nat × Text)) : Prop := entries.Pairwise fun a b ↦ b.1 < a.1

theorem mem_enterLine {line : Nat} {content : Text} {entries : List (Nat × Text)}
    {entry : Nat × Text} (h : entry ∈ enterLine line content entries) :
    entry = (line, content) ∨ entry ∈ entries := by
  induction entries with
  | nil => exact Or.inl (List.mem_singleton.mp h)
  | cons other entries ih =>
    rw [enterLine] at h
    split at h
    · exact List.mem_cons.mp h
    · split at h
      · rcases List.mem_cons.mp h with h | h
        · exact Or.inl h
        · exact Or.inr (List.mem_cons_of_mem _ h)
      · rcases List.mem_cons.mp h with h | h
        · exact Or.inr (List.mem_cons.mpr (Or.inl h))
        · exact (ih h).imp_right (List.mem_cons_of_mem _)

theorem descending_enterLine (line : Nat) (content : Text) {entries : List (Nat × Text)}
    (h : Descending entries) : Descending (enterLine line content entries) := by
  induction entries with
  | nil => exact List.pairwise_singleton _ _
  | cons other entries ih =>
    obtain ⟨hhead, htail⟩ := List.pairwise_cons.mp h
    rw [enterLine]
    split
    · next hlt =>
      refine List.pairwise_cons.mpr ⟨?_, h⟩
      intro entry hentry
      rcases List.mem_cons.mp hentry with rfl | hentry
      · exact hlt
      · exact Nat.lt_trans (hhead entry hentry) hlt
    · next hle =>
      split
      · next heq =>
        refine List.pairwise_cons.mpr ⟨?_, htail⟩
        intro entry hentry
        exact heq ▸ hhead entry hentry
      · next hne =>
        -- the new entry goes further down, below a line that is later than its own
        refine List.pairwise_cons.mpr ⟨?_, ih htail⟩
        intro entry hentry
        rcases mem_enterLine hentry with rfl | hentry
        · exact Nat.lt_of_le_of_ne (Nat.not_lt.mp hle) hne
        · exact hhead entry hentry

theorem lookup_cons_line (line : Nat) (content : Text) (entries : List (Nat × Text))
    (wanted : Nat) :
    ((line, content) :: entries).lookup wanted
      = if wanted = line then some content else entries.lookup wanted := by
  rw [List.lookup_cons]
  by_cases hwanted : wanted = line
  · rw [if_pos hwanted, beq_iff_eq.mpr hwanted]
  · rw [if_neg hwanted, beq_eq_false_iff_ne.mpr hwanted]

theorem lookup_enterLine (line : Nat) (content : Text) (entries : List (Nat × Text))
    (wanted : Nat) :
    (enterLine line content entries).lookup wanted
      = if wanted = line then some content else entries.lookup wanted := by
  induction entries with
  | nil => exact lookup_cons_line line content [] wanted
  | cons other entries ih =>
    obtain ⟨other, text⟩ := other
    rw [enterLine]
    split
    · exact lookup_cons_line line content _ wanted
    · split
      · next heq =>
        rw [lookup_cons_line, lookup_cons_line, heq]
        by_cases hwanted : wanted = other
        · rw [if_pos hwanted, if_pos hwanted]
        · rw [if_neg hwanted, if_neg hwanted, if_neg hwanted]
      · next hne =>
        rw [lookup_cons_line, lookup_cons_line, ih]
        by_cases hwanted : wanted = other
        · rw [if_pos hwanted, if_neg (hwanted ▸ Ne.symm hne), if_pos hwanted]
        · rw [if_neg hwanted, if_neg hwanted]

/-- In descending entries a line occurs once, so that looking it up finds it. -/
theorem lookup_eq_some_iff {entries : List (Nat × Text)} (h : Descending entries) {line : Nat}
    {content : Text} : entries.lookup line = some content ↔ (line, content) ∈ entries := by
  induction entries with
  | nil => exact iff_of_false (by simp) List.not_mem_nil
  | cons entry entries ih =>
    obtain ⟨other, text⟩ := entry
    obtain ⟨hhead, htail⟩ := List.pairwise_cons.mp h
    rw [lookup_cons_line, List.mem_cons, Prod.mk.injEq]
    by_cases hline : line = other
    -- the entries below are for earlier lines, so only the first can be for this one
    · have hnot : (line, content) ∉ entries := by
        intro hmem
        exact absurd (hline ▸ hhead _ hmem) (Nat.lt_irrefl _)
      rw [if_pos hline, Option.some.injEq, eq_comm]
      constructor
      · intro heq
        exact Or.inl ⟨hline, heq⟩
      · intro hor
        exact (hor.resolve_right hnot).2
    · rw [if_neg hline, ih htail]
      constructor
      · exact Or.inr
      · intro hor
        exact hor.resolve_left fun heq ↦ hline heq.1

/-! ## Comments entered -/

section Enter

variable (config : ScanConfig)

theorem lookup_enterComment (entries : List (Nat × Text)) (comment : Comment) (line : Nat) :
    (enterComment config entries comment).lookup line
      = ((enterComment config [] comment).lookup line).or (entries.lookup line) := by
  unfold enterComment
  split
  · rw [lookup_enterLine, lookup_enterLine]
    by_cases hline : line = comment.line
    · rw [if_pos hline, if_pos hline, Option.some_or]
    · rw [if_neg hline, if_neg hline, List.lookup_nil, Option.none_or]
  · rw [List.lookup_nil, Option.none_or]

theorem lookup_foldl_enterComment (comments : List Comment) (entries : List (Nat × Text))
    (line : Nat) :
    (comments.foldl (enterComment config) entries).lookup line
      = ((comments.foldl (enterComment config) []).lookup line).or (entries.lookup line) := by
  induction comments generalizing entries with
  | nil => rw [List.foldl_nil, List.foldl_nil, List.lookup_nil, Option.none_or]
  | cons comment comments ih =>
    rw [List.foldl_cons, List.foldl_cons, ih, ih (enterComment config [] comment),
      lookup_enterComment, Option.or_assoc]

theorem descending_foldl (comments : List Comment) {entries : List (Nat × Text)}
    (h : Descending entries) : Descending (comments.foldl (enterComment config) entries) := by
  induction comments generalizing entries with
  | nil => exact h
  | cons comment comments ih =>
    apply ih
    unfold enterComment
    split
    · exact descending_enterLine _ _ h
    · exact h

end Enter

/-! ## Blocks -/

/-- The blocks that a scan has recorded once it has found `comments`. -/
def recordedBlocks (config : ScanConfig) (origin : Origin) (comments : List Comment) :
    List ExtractedBlock :=
  (comments.foldl (enterComment config) []).reverse.map fun (line, content) ↦
    ⟨origin, line, content⟩

/-- The blocks are in ascending order of lines, one for each line at most. -/
def Ascending (blocks : List ExtractedBlock) : Prop :=
  blocks.Pairwise fun a b ↦ a.startLine < b.startLine

/-- The block that begins on a line. -/
def blockOn? (blocks : List ExtractedBlock) (line : Nat) : Option ExtractedBlock :=
  blocks.find? fun block ↦ block.startLine = line

theorem blockOn?_eq_some_iff {blocks : List ExtractedBlock} (h : Ascending blocks) {line : Nat}
    {block : ExtractedBlock} :
    blockOn? blocks line = some block ↔ block ∈ blocks ∧ block.startLine = line := by
  induction blocks with
  | nil => exact iff_of_false (by simp [blockOn?]) fun hmem ↦ List.not_mem_nil hmem.1
  | cons first blocks ih =>
    obtain ⟨hhead, htail⟩ := List.pairwise_cons.mp h
    rw [blockOn?, List.find?_cons, List.mem_cons]
    by_cases hfirst : first.startLine = line
    · rw [decide_eq_true hfirst, Option.some.injEq]
      constructor
      · intro heq
        exact ⟨Or.inl heq.symm, heq ▸ hfirst⟩
      · rintro ⟨rfl | hmem, hline⟩
        · rfl
        · exact absurd (hhead block hmem) (by rw [hfirst, hline]; exact Nat.lt_irrefl _)
    · rw [decide_eq_false hfirst]
      apply (ih htail).trans
      constructor
      · rintro ⟨hmem, hline⟩
        exact ⟨Or.inr hmem, hline⟩
      · rintro ⟨rfl | hmem, hline⟩
        · exact absurd hline hfirst
        · exact ⟨hmem, hline⟩

section Recorded

variable (config : ScanConfig) (origin : Origin)

theorem scan_blocks (source : Source) (profile : Profile) :
    (source.scan profile config).blocks
      = recordedBlocks config source.origin (survey profile.blocks source.cursor).comments := rfl

theorem ascending_recordedBlocks (comments : List Comment) :
    Ascending (recordedBlocks config origin comments) := by
  have hdescending := descending_foldl config comments (List.Pairwise.nil : Descending [])
  rw [Ascending, recordedBlocks, List.pairwise_map, List.pairwise_reverse]
  exact hdescending

theorem blockOn?_recordedBlocks (comments : List Comment) (line : Nat) :
    blockOn? (recordedBlocks config origin comments) line
      = ((comments.foldl (enterComment config) []).lookup line).map fun content ↦
        ⟨origin, line, content⟩ := by
  have hdescending := descending_foldl config comments (List.Pairwise.nil : Descending [])
  apply Option.ext
  intro block
  -- on both sides the order makes looking up a matter of membership
  rw [blockOn?_eq_some_iff (ascending_recordedBlocks config origin comments), recordedBlocks,
    List.mem_map, Option.map_eq_some_iff]
  constructor
  · rintro ⟨⟨⟨other, content⟩, hmem, rfl⟩, rfl⟩
    exact ⟨content, (lookup_eq_some_iff hdescending).mpr (List.mem_reverse.mp hmem), rfl⟩
  · rintro ⟨content, hlookup, rfl⟩
    refine ⟨⟨(line, content), ?_, rfl⟩, rfl⟩
    exact List.mem_reverse.mpr ((lookup_eq_some_iff hdescending).mp hlookup)

/-- **Of the comments found on a line, the blocks found later count.** -/
theorem blockOn?_recordedBlocks_append (found later : List Comment) (line : Nat) :
    blockOn? (recordedBlocks config origin (found ++ later)) line
      = (blockOn? (recordedBlocks config origin later) line).or
        (blockOn? (recordedBlocks config origin found) line) := by
  rw [blockOn?_recordedBlocks, blockOn?_recordedBlocks, blockOn?_recordedBlocks, List.foldl_append,
    lookup_foldl_enterComment]
  cases (later.foldl (enterComment config) []).lookup line <;> rfl

end Recorded

end CommentBlocks
