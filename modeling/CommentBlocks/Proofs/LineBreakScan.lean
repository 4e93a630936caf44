import CommentBlocks.Language.Builtin
import CommentBlocks.Proofs.LineBreakBlocks
import CommentBlocks.Proofs.TruncatedScan
import Mathlib.Data.List.Find

/-!
# Scanning texts that differ in their line breaks

A text is scanned alike whether its lines end with a line feed or with a carriage return and a line
feed, as long as no token of the language has a line break in it. The same comments are found on the
same lines, with the same contents up to their line breaks, and an open block is found at the same
line and column. Only byte offsets differ.

The two scans do not run in step. Where the narrow text has a line feed outside all blocks, the scan
of the wide text takes two turns, one for each half of the break, and neither of them opens a block.
Elsewhere one turn corresponds to one turn (`Place.Widens.sameTurn`), and it ends at the same line
and column, since a carriage return is always followed by the line feed that starts the column over.
-/

namespace CommentBlocks

/-! ## Profiles -/

/-- The tokens of a block, and the characters of its margin. -/
def Block.tokens : Block → List Text
  | .delimited form => form.tokens
  | .heredoc => [heredocOpener]

/-- No token of the block has a line break in it. -/
def Block.IsUnbroken (block : Block) : Prop := ∀ token ∈ block.tokens, token.IsUnbroken

instance (block : Block) : Decidable block.IsUnbroken :=
  inferInstanceAs (Decidable (∀ token ∈ block.tokens, token.IsUnbroken))

/-- No token of the language has a line break in it. -/
def Profile.IsUnbroken (profile : Profile) : Prop := ∀ block ∈ profile.blocks, block.IsUnbroken

instance (profile : Profile) : Decidable profile.IsUnbroken :=
  inferInstanceAs (Decidable (∀ block ∈ profile.blocks, block.IsUnbroken))

theorem Delimited.openers_subset_tokens (form : Delimited) : form.openers ⊆ form.tokens := by
  cases form with
  | raw openers quote => exact List.subset_cons_self _ _
  | _ => exact List.cons_subset.mpr ⟨List.mem_cons_self, List.nil_subset _⟩

/-! ## Places -/

/-- The same line and the same column. Byte offsets may differ. -/
structure Position.Alike (p q : Position) : Prop where
  /-- The lines agree. -/
  line : p.line = q.line
  /-- The columns agree. -/
  character : p.character = q.character

namespace Position.Alike

variable {wide narrow : Position}

theorem advance (h : wide.Alike narrow) (c : Char) : (wide.advance c).Alike (narrow.advance c) := by
  unfold Position.advance
  split
  · exact ⟨congrArg (· + 1) h.line, rfl⟩
  · exact ⟨h.line, congrArg (· + 1) h.character⟩

/-- The line feed makes up for the column that the carriage return has taken. -/
theorem advance_feed (h : wide.Alike narrow) :
    ((wide.advance '\r').advance '\n').Alike (narrow.advance '\n') :=
  ⟨congrArg (· + 1) h.line, rfl⟩

theorem advanceText_toCrlf (h : wide.Alike narrow) (text : Text) :
    (wide.advanceText text.toCrlf).Alike (narrow.advanceText text) := by
  induction text generalizing wide narrow with
  | nil => exact h
  | cons c text ih =>
    by_cases hc : c = '\n'
    · rw [hc, Text.toCrlf_feed]
      exact ih h.advance_feed
    · rw [Text.toCrlf_cons hc]
      exact ih (h.advance c)

end Position.Alike

/-- Places at the same line and column, before texts that differ in how they break lines. -/
structure Place.Widens (wide narrow : Place) : Prop where
  /-- Line and column are the same. -/
  position : wide.position.Alike narrow.position
  /-- The text of one is the text of the other, with wider line breaks. -/
  rest : wide.rest = narrow.rest.toCrlf
  /-- The narrow line breaks are line feeds alone. -/
  narrow : '\r' ∉ narrow.rest

theorem Place.Widens.after {wide narrow : Place} {read rest : Text} (h : wide.Widens narrow)
    (hrest : narrow.rest = read ++ rest) :
    (wide.after read.toCrlf).Widens (narrow.after read) := by
  have hwide : wide.rest = read.toCrlf ++ rest.toCrlf := by
    rw [h.rest, hrest, Text.toCrlf_append]
  refine ⟨h.position.advanceText_toCrlf read, ?_, ?_⟩
  · rw [Place.after, Place.after, hwide, hrest, List.drop_left, List.drop_left]
  · exact fun hmem ↦ h.narrow (List.mem_of_mem_drop hmem)

/-! ## Openings -/

def Opening.toCrlf : Opening → Opening
  | .refused returned => .refused returned
  | .opened block body last => .opened block body.toCrlf last.toCrlf

section Openings

variable {text : Text}

theorem plainOpening_toCrlf {form : Delimited} (hform : ∀ token ∈ form.openers, token.IsUnbroken)
    (text : Text) : plainOpening form text.toCrlf = (plainOpening form text).toCrlf := by
  have hfind : form.openers.find? (Text.startsWith · text.toCrlf)
      = form.openers.find? (Text.startsWith · text) := by
    apply List.find?_congr
    intro opener hopener
    exact Text.startsWith_toCrlf (hform opener hopener) text
  rw [plainOpening, plainOpening, hfind]
  cases hopener : form.openers.find? (Text.startsWith · text) with
  | none => rfl
  | some opener =>
    have hself := Text.toCrlf_eq_self (hform opener (List.mem_of_find?_eq_some hopener)).2
    rw [Opening.toCrlf, hself, Text.toCrlf_nil]

theorem anchoredOpening_toCrlf {opener closer : Text} {wide narrow : Place}
    (hopener : opener.IsUnbroken) (h : wide.Widens narrow) :
    anchoredOpening opener closer wide = (anchoredOpening opener closer narrow).toCrlf := by
  have hbreak : (Text.afterToken? opener wide.rest).bind Text.lineBreak?
      = ((Text.afterToken? opener narrow.rest).bind Text.lineBreak?).map Text.toCrlf := by
    rw [h.rest, Text.afterToken?_toCrlf hopener]
    cases hafter : Text.afterToken? opener narrow.rest with
    | none => rfl
    | some rest => exact Text.lineBreak?_toCrlf (not_mem_of_afterToken? hafter h.narrow)
  rw [anchoredOpening, anchoredOpening, h.position.character, hbreak]
  split
  · rfl
  · cases (Text.afterToken? opener narrow.rest).bind Text.lineBreak? with
    | none => rfl
    | some lineBreak =>
      rw [Option.map_some, Opening.toCrlf, Text.toCrlf_eq_self hopener.2]

theorem Text.trimEnd_append_return (text : Text) :
    Text.trimEnd (text ++ ['\r']) = Text.trimEnd text := by
  rw [Text.trimEnd, List.reverse_append, List.reverse_singleton, List.singleton_append,
    List.dropWhile_cons_of_pos (by decide), Text.trimEnd]

/-- A label ends before the white space at the end of its line, and a carriage return is that. -/
theorem HeredocLabel.ofLine?_toCrlf {line : Text} (h : line.IsLine) (hreturn : '\r' ∉ line) :
    HeredocLabel.ofLine? line.toCrlf = HeredocLabel.ofLine? line := by
  obtain ⟨body, hbody, rfl | rfl⟩ := h.cases hreturn
  · rw [Text.toCrlf_eq_self hbody.2]
  · have hwide : Text.toCrlf (body ++ ['\n']) = body ++ ['\r'] ++ ['\n'] := by
      rw [Text.toCrlf_append, Text.toCrlf_eq_self hbody.2, List.append_assoc]
      rfl
    rw [hwide, ofLine?, ofLine?, List.getLast?_concat, List.getLast?_concat, List.dropLast_concat,
      List.dropLast_concat, Text.trimEnd_append_return]

theorem heredocOpening_toCrlf (htext : '\r' ∉ text) :
    heredocOpening text.toCrlf = (heredocOpening text).toCrlf := by
  have hopener : heredocOpener.IsUnbroken := by decide
  rw [heredocOpening, heredocOpening, Text.afterToken?_toCrlf hopener]
  cases hafter : Text.afterToken? heredocOpener text with
  | none => rfl
  | some rest =>
    have hrest := not_mem_of_afterToken? hafter htext
    dsimp only [Option.map_some]
    rcases Text.skip_spaces_toCrlf rest with ⟨more, hnarrow, hwide⟩ | ⟨htake, hdrop⟩
    · -- no label stands on the line, however far the spaces go
      rw [hnarrow, hwide]
      rfl
    · have hreturn : '\r' ∉ (Text.splitLine (rest.dropWhile isSpace)).1 := by
        intro hmem
        apply hrest
        exact (List.dropWhile_sublist isSpace).subset (Text.mem_splitLine.mpr (Or.inl hmem))
      rw [hdrop, Text.splitLine_toCrlf]
      dsimp only
      rw [HeredocLabel.ofLine?_toCrlf (Text.isLine_splitLine _) hreturn]
      cases HeredocLabel.ofLine? (Text.splitLine (rest.dropWhile isSpace)).1 with
      | none => rfl
      | some label =>
        dsimp only [Opening.toCrlf]
        rw [htake, Text.toCrlf_append, Text.toCrlf_eq_self hopener.2,
          Text.toCrlf_eq_self (Text.not_mem_takeWhile_isSpace rest)]

end Openings

namespace Place

variable {wide narrow : Place} {block : Block} {blocks : List Block}

theorem openingAt_toCrlf (hblock : block.IsUnbroken) (h : wide.Widens narrow) :
    block.openingAt wide = (block.openingAt narrow).toCrlf := by
  unfold Block.openingAt
  split
  · rw [h.rest]
    exact heredocOpening_toCrlf h.narrow
  · exact anchoredOpening_toCrlf (hblock _ List.mem_cons_self) h
  · next form _ =>
    rw [h.rest]
    apply plainOpening_toCrlf
    intro token htoken
    exact hblock token (form.openers_subset_tokens htoken)

theorem opening?_toCrlf (hblock : block.IsUnbroken) (h : wide.Widens narrow) :
    wide.opening? block
      = (narrow.opening? block).map fun found ↦ (found.1, found.2.toCrlf) := by
  rw [opening?, opening?, openingAt_toCrlf hblock h]
  cases block.openingAt narrow with
  | refused returned => rfl
  | opened opened body last => simp [Opening.toCrlf]

theorem findSome?_opening?_toCrlf (hblocks : ∀ block ∈ blocks, block.IsUnbroken)
    (h : wide.Widens narrow) :
    blocks.findSome? wide.opening?
      = (blocks.findSome? narrow.opening?).map fun found ↦ (found.1, found.2.toCrlf) := by
  induction blocks with
  | nil => rfl
  | cons block blocks ih =>
    obtain ⟨hblock, hothers⟩ := List.forall_mem_cons.mp hblocks
    rw [List.findSome?_cons, List.findSome?_cons, opening?_toCrlf hblock h]
    cases narrow.opening? block with
    | none => exact ih hothers
    | some found => rfl

theorem opening?_of_break {place : Place} {c : Char} {rest : Text} (hblock : block.IsUnbroken)
    (hc : c = '\r' ∨ c = '\n') (hrest : place.rest = c :: rest) : place.opening? block = none := by
  have hrefused : ∃ returned, block.openingAt place = .refused returned := by
    unfold Block.openingAt
    split
    · rw [hrest, heredocOpening, Text.afterToken?_of_break (by decide) hc]
      exact ⟨false, rfl⟩
    · rw [anchoredOpening, hrest, Text.afterToken?_of_break (hblock _ List.mem_cons_self) hc,
        Option.bind_none]
      split
      · exact ⟨false, rfl⟩
      · exact ⟨true, rfl⟩
    · next form _ =>
      refine ⟨false, ?_⟩
      rw [plainOpening, hrest, List.find?_eq_none.mpr]
      intro opener hopener
      rw [Text.startsWith,
        Text.afterToken?_of_break (hblock opener (form.openers_subset_tokens hopener)) hc]
      exact Bool.false_ne_true
  obtain ⟨returned, hrefused⟩ := hrefused
  rw [opening?, hrefused]

theorem turn_of_break {place : Place} {c : Char} {rest : Text}
    (hblocks : ∀ block ∈ blocks, block.IsUnbroken) (hc : c = '\r' ∨ c = '\n')
    (hrest : place.rest = c :: rest) : place.turn blocks = .moved none (place.after [c]) := by
  apply turn_of_no_opening hrest
  rw [List.findSome?_eq_none_iff]
  intro block hblock
  exact opening?_of_break (hblocks block hblock) hc hrest

theorem isUnbroken_of_opening? {place : Place} {opened : OpenBlock} {opener : Text}
    (hblock : block.IsUnbroken) (h : place.opening? block = some (opened, opener)) :
    ∀ token ∈ opened.tokens, token.IsUnbroken := by
  obtain ⟨body, last, hopening, -⟩ := openingAt_of_opening? h
  rcases Block.openingAt_eq_opened hopening with ⟨form, rfl, rfl⟩ | ⟨label, rfl, rfl, hlabel⟩
  · exact hblock
  · have hword := HeredocLabel.isIdentifier_of_ofLine? hlabel
    intro token htoken
    rw [List.mem_singleton.mp htoken]
    exact ⟨Text.not_mem_of_isIdentifier (by decide +kernel) hword,
      Text.not_mem_of_isIdentifier (by decide +kernel) hword⟩

end Place

/-! ## Turns -/

/-- One comment in two texts that differ in how they break lines. -/
structure SameComment (wide narrow : Comment) : Prop where
  /-- It begins at the same line and column. -/
  start : wide.start.Alike narrow.start
  /-- It has the same lines. -/
  lines : List.Forall₂ SameLine wide.lines narrow.lines

/-- One open block in two texts that differ in how they break lines. -/
structure SameStop (wide narrow : Unterminated) : Prop where
  /-- It begins at the same line and column. -/
  position : wide.position.Alike narrow.position
  /-- It is of the same kind. -/
  kind : wide.kind = narrow.kind

/-- Turns that come to the same. -/
inductive SameTurn : Turn → Turn → Prop where
  /-- Neither text has more. -/
  | finished : SameTurn .finished .finished
  /-- Both turns read on, and both have found a comment or neither has. -/
  | moved {wideComment narrowComment : Option Comment} {wide narrow : Place} :
    Option.Rel SameComment wideComment narrowComment → wide.Widens narrow →
      SameTurn (.moved wideComment wide) (.moved narrowComment narrow)
  /-- Both turns find an open block. -/
  | stopped {wide narrow : Unterminated} :
    SameStop wide narrow → SameTurn (.stopped wide) (.stopped narrow)

namespace Place.Widens

variable {wide narrow : Place} {blocks : List Block}

/-- **Away from line breaks, turns come to the same.** -/
theorem sameTurn (hblocks : ∀ block ∈ blocks, block.IsUnbroken) (h : wide.Widens narrow)
    (hhead : narrow.rest.head? ≠ some '\n') :
    SameTurn (wide.turn blocks) (narrow.turn blocks) := by
  by_cases hend : narrow.rest = []
  · rw [turn, turn, if_pos hend, if_pos (by rw [h.rest, hend, Text.toCrlf_nil])]
    exact .finished
  obtain ⟨c, rest, hrest⟩ := List.exists_cons_of_ne_nil hend
  have hopenings := findSome?_opening?_toCrlf hblocks h
  cases hopening : blocks.findSome? narrow.opening? with
  | none =>
    have hc : c ≠ '\n' := by
      rintro rfl
      exact hhead (by rw [hrest]; rfl)
    have hwide : wide.rest = c :: Text.toCrlf rest := by rw [h.rest, hrest, Text.toCrlf_cons hc]
    have hself : Text.toCrlf [c] = [c] := Text.toCrlf_cons hc []
    rw [hopening, Option.map_none] at hopenings
    rw [turn_of_no_opening hrest hopening, turn_of_no_opening hwide hopenings, ← hself]
    nth_rewrite 2 [hself]
    exact .moved .none (h.after (show narrow.rest = [c] ++ rest from hrest))
  | some found =>
    obtain ⟨opened, opener⟩ := found
    obtain ⟨-, text, htext⟩ := findSome?_opening?_eq_some hopening
    obtain ⟨block, hblock, hfound⟩ := List.exists_of_findSome?_eq_some hopening
    have hwide : wide.rest = opener.toCrlf ++ text.toCrlf := by
      rw [h.rest, htext, Text.toCrlf_append]
    have hreturn : '\r' ∉ text := by
      intro hmem
      exact h.narrow (htext ▸ List.mem_append_right _ hmem)
    have hendings := OpenBlock.rel_ending?_toCrlf
      (isUnbroken_of_opening? (hblocks block hblock) hfound) hreturn
    rw [hopening, Option.map_some] at hopenings
    rw [turn_of_opening htext hopening, turn_of_opening hwide hopenings]
    generalize opened.ending? text.toCrlf = wideEnding at hendings ⊢
    generalize hnarrow : opened.ending? text = narrowEnding at hendings ⊢
    cases hendings with
    | none => exact .stopped ⟨h.position, rfl⟩
    | some hsame =>
      dsimp only
      rw [hsame.read, ← Text.toCrlf_append]
      refine .moved ?_ ?_
      · split
        · exact .some ⟨h.position, hsame.lines⟩
        · exact .none
      · obtain ⟨more, rfl⟩ := OpenBlock.ending?_eq_some hnarrow
        exact h.after (htext.trans (List.append_assoc _ _ _).symm)

/-- At a line break the scan of the wide text takes one turn more. -/
theorem turn_of_feed {rest : Text} (hblocks : ∀ block ∈ blocks, block.IsUnbroken)
    (h : wide.Widens narrow) (hrest : narrow.rest = '\n' :: rest) :
    narrow.turn blocks = .moved none (narrow.after ['\n'])
      ∧ wide.turn blocks = .moved none (wide.after ['\r'])
      ∧ (wide.after ['\r']).turn blocks = .moved none (wide.after ['\r', '\n'])
      ∧ (wide.after ['\r', '\n']).Widens (narrow.after ['\n']) := by
  have hwide : wide.rest = '\r' :: '\n' :: rest.toCrlf := by
    rw [h.rest, hrest, Text.toCrlf_feed]
  refine ⟨turn_of_break hblocks (Or.inr rfl) hrest, turn_of_break hblocks (Or.inl rfl) hwide, ?_,
    h.after (show narrow.rest = ['\n'] ++ rest from hrest)⟩
  rw [← List.singleton_append (l := ['\n']), Place.after_append]
  apply turn_of_break hblocks (Or.inr rfl)
  rw [Place.after, hwide]
  rfl

end Place.Widens

/-! ## Surveys -/

/-- Surveys of two texts that differ in how they break lines. -/
structure SameSurvey (wide narrow : Survey) : Prop where
  /-- The same comments are found. -/
  comments : List.Forall₂ SameComment wide.comments narrow.comments
  /-- The same block stops the reading, or none does. -/
  unterminated : Option.Rel SameStop wide.unterminated narrow.unterminated

theorem SameSurvey.following {wide narrow : Survey} {wideComment narrowComment : Option Comment}
    (hcomment : Option.Rel SameComment wideComment narrowComment) (h : SameSurvey wide narrow) :
    SameSurvey (wide.following wideComment.toList) (narrow.following narrowComment.toList) := by
  refine ⟨?_, h.unterminated⟩
  cases hcomment with
  | none => exact h.comments
  | some hsame => exact .cons hsame h.comments

/-- **The two texts are surveyed alike.** -/
theorem sameSurvey {blocks : List Block} {wide narrow : Cursor}
    (hblocks : ∀ block ∈ blocks, block.IsUnbroken) (h : wide.here.Widens narrow.here) :
    SameSurvey (survey blocks wide) (survey blocks narrow) := by
  by_cases hhead : narrow.here.rest.head? = some '\n'
  · obtain ⟨rest, hrest⟩ := List.head?_eq_some_iff.mp hhead
    obtain ⟨hnarrow, hfirst, hsecond, hnext⟩ := h.turn_of_feed hblocks hrest
    have hless : (narrow.here.after ['\n']).cursor.here.rest.length
        < narrow.here.rest.length := Place.length_rest_lt_of_turn hnarrow
    have hlater : SameSurvey (survey blocks (wide.here.after ['\r', '\n']).cursor)
        (survey blocks (narrow.here.after ['\n']).cursor) := sameSurvey hblocks hnext
    rw [survey_of_moved narrow hnarrow, survey_of_moved wide hfirst,
      survey_of_moved (wide.here.after ['\r']).cursor hsecond]
    exact hlater
  · have hturn := h.sameTurn hblocks hhead
    generalize hwide : wide.here.turn blocks = wideTurn at hturn
    generalize hnarrow : narrow.here.turn blocks = narrowTurn at hturn
    cases hturn with
    | finished =>
      rw [survey_of_finished hwide, survey_of_finished hnarrow]
      exact ⟨.nil, .none⟩
    | stopped hstop =>
      rw [survey_of_stopped hwide, survey_of_stopped hnarrow]
      exact ⟨.nil, .some hstop⟩
    | @moved _ _ wideNext narrowNext hcomment hnext =>
      have hless : narrowNext.cursor.here.rest.length < narrow.here.rest.length :=
        Place.length_rest_lt_of_turn hnarrow
      have hlater : SameSurvey (survey blocks wideNext.cursor) (survey blocks narrowNext.cursor) :=
        sameSurvey hblocks hnext
      rw [survey_of_moved wide hwide, survey_of_moved narrow hnarrow]
      exact hlater.following hcomment
termination_by narrow.here.rest.length

/-! ## Scans -/

theorem content?_eq_layout? {config : ScanConfig} (hconfig : config.minContentLength ≤ 1)
    (comment : Comment) : comment.content? config = layout? comment.lines := by
  rw [Comment.content?]
  cases hlayout : layout? comment.lines with
  | none => rfl
  | some content =>
    obtain ⟨c, rest, rfl, -⟩ := exists_cons_of_layout? hlayout
    have hlength : 1 ≤ Text.byteLength (c :: rest) := by
      rw [Text.byteLength_cons]
      exact Nat.le_add_right_of_le c.utf8Size_pos
    rw [Option.filter_some, if_pos]
    exact decide_eq_true (Nat.le_trans hconfig hlength)

/-- An entry with narrow line breaks. -/
def narrowEntry (entry : Nat × Text) : Nat × Text := (entry.1, entry.2.toLf)

theorem map_narrowEntry_enterLine (line : Nat) (content : Text) (entries : List (Nat × Text)) :
    (enterLine line content entries).map narrowEntry
      = enterLine line content.toLf (entries.map narrowEntry) := by
  induction entries with
  | nil => rfl
  | cons entry entries ih =>
    rw [enterLine, List.map_cons, narrowEntry, enterLine]
    split
    · rfl
    · split
      · rfl
      · rw [List.map_cons, ih]
        rfl

theorem map_narrowEntry_enterComment {config : ScanConfig} {wide narrow : Comment}
    (hconfig : config.minContentLength ≤ 1) (h : SameComment wide narrow)
    (entries : List (Nat × Text)) :
    (enterComment config entries wide).map narrowEntry
      = enterComment config (entries.map narrowEntry) narrow := by
  have hline : wide.line = narrow.line := congrArg (· + 1) h.start.line
  rw [enterComment, enterComment, content?_eq_layout? hconfig, content?_eq_layout? hconfig,
    ← map_toLf_layout? h.lines]
  cases layout? wide.lines with
  | none => rfl
  | some content =>
    dsimp only [Option.map_some]
    rw [map_narrowEntry_enterLine, hline]

theorem map_narrowEntry_foldl {config : ScanConfig} {wide narrow : List Comment}
    (hconfig : config.minContentLength ≤ 1) (h : List.Forall₂ SameComment wide narrow)
    (entries : List (Nat × Text)) :
    (wide.foldl (enterComment config) entries).map narrowEntry
      = narrow.foldl (enterComment config) (entries.map narrowEntry) := by
  induction h generalizing entries with
  | nil => rfl
  | cons hcomment _ ih =>
    rw [List.foldl_cons, List.foldl_cons, ih, map_narrowEntry_enterComment hconfig hcomment]

namespace Source

/-- **A scan does not depend on how lines are broken.** Let no token of a language have a line break
in it, as is the case for every built-in language, and let a text have no carriage returns. With a
carriage return before every line feed it has the same blocks on the same lines, whose contents
differ only in their line breaks, and the same open block, if there is one, at the same line and
column. Any content counts, since a block that is kept for its length may be kept for the length of
its line breaks. -/
theorem scan_toCrlf :
    (∀ profile ∈ Builtin.profiles, profile.IsUnbroken)
      ∧ ∀ (profile : Profile) (config : ScanConfig) (text : Text) (origin : Origin)
          (start : Position),
        profile.IsUnbroken → config.minContentLength ≤ 1 → '\r' ∉ text →
          let wide := (⟨text.toCrlf, origin, start⟩ : Source).scan profile config
          let narrow := (⟨text, origin, start⟩ : Source).scan profile config
          (wide.blocks.map fun block ↦ { block with content := block.content.toLf })
              = narrow.blocks
            ∧ (wide.unterminated.map fun stop ↦
                (stop.kind, stop.position.line, stop.position.character))
              = narrow.unterminated.map fun stop ↦
                (stop.kind, stop.position.line, stop.position.character) := by
  refine ⟨by decide +kernel, ?_⟩
  intro profile config text origin start hprofile hconfig htext wide narrow
  have hsurvey : SameSurvey (survey profile.blocks (⟨text.toCrlf, origin, start⟩ : Source).cursor)
      (survey profile.blocks (⟨text, origin, start⟩ : Source).cursor) :=
    sameSurvey hprofile ⟨⟨rfl, rfl⟩, rfl, htext⟩
  constructor
  · have hentries := map_narrowEntry_foldl hconfig hsurvey.comments []
    rw [List.map_nil] at hentries
    rw [scan_blocks, scan_blocks, recordedBlocks, recordedBlocks, ← hentries, List.map_map,
      ← List.map_reverse, List.map_map]
    rfl
  · have hstop : Option.Rel SameStop wide.unterminated narrow.unterminated := hsurvey.unterminated
    generalize wide.unterminated = wideStop at hstop
    generalize narrow.unterminated = narrowStop at hstop
    cases hstop with
    | none => rfl
    | some hsame =>
      rw [Option.map_some, Option.map_some, hsame.kind, hsame.position.line,
        hsame.position.character]

/-- A comment of two lines and an open string behind it. -/
theorem scan_toCrlf_open_string :
    let profile : Profile := ⟨"x", "X", [], [.comment "/*" "*/", .verbatim "\"" "\""]⟩
    let text : Text := "/* one\n two */\n \"".toList
    let wide := (⟨text.toCrlf, ⟨"a"⟩, .zero⟩ : Source).scan profile ⟨1⟩
    let narrow := (⟨text, ⟨"a"⟩, .zero⟩ : Source).scan profile ⟨1⟩
    narrow.blocks = [⟨⟨"a"⟩, 1, "one\ntwo ".toList⟩]
      ∧ narrow.unterminated = some ⟨⟨2, 1, 16⟩, .string⟩
      ∧ (wide.blocks.map fun block ↦ { block with content := block.content.toLf }) = narrow.blocks
      ∧ (wide.unterminated.map fun stop ↦
          (stop.kind, stop.position.line, stop.position.character)) = some (.string, 2, 1) := by
  intro profile text wide narrow
  have hblocks : narrow.blocks = [⟨⟨"a"⟩, 1, "one\ntwo ".toList⟩] := by
    decide +kernel +zetaReduce
  have hstop : narrow.unterminated = some ⟨⟨2, 1, 16⟩, .string⟩ := by
    decide +kernel +zetaReduce
  obtain ⟨hwide, hwideStop⟩ := scan_toCrlf.2 profile ⟨1⟩ text ⟨"a"⟩ .zero
    (by decide +kernel +zetaReduce) (by decide) (by decide +kernel +zetaReduce)
  refine ⟨hblocks, hstop, hwide, hwideStop.trans ?_⟩
  exact congrArg (Option.map _) hstop

end Source

end CommentBlocks
