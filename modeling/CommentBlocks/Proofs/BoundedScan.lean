import CommentBlocks.Proofs.BoundedBlocks
import CommentBlocks.Proofs.ScanShape

/-!
# A scan exceeds no counter

A scan with checked counts, from the bytes of a file to the lines of its blocks. Reading ahead to
see whether a block begins, reading the block and reading a character are known to keep the room
that the source has, and a pass of the scan is made of these.

What is shown of a position is one more than what is counted. It is shown of places where a block
begins, and an opener is not empty, so that the next byte has room and this one more has as well.
-/

namespace CommentBlocks

namespace Cursor

variable {cursor : Cursor}

/-! ## Beginning a block -/

namespace HasRoom

theorem agrees_matchFirst (h : cursor.HasRoom) (tokens : List Text) :
    Agrees (cursor.matchFirst tokens) (cursor.matchFirst tokens) (·.2.HasRoom) := by
  induction tokens generalizing cursor with
  | nil => exact .pure h
  | cons token tokens ih =>
    refine (h.agrees_matchTokenM token).bind ?_
    rintro ⟨_ | _, after⟩ - hafter
    · exact ih hafter
    · exact .pure hafter

theorem agrees_beginHeredoc (h : cursor.HasRoom) :
    Agrees cursor.beginHeredoc cursor.beginHeredoc (·.2.HasRoom) := by
  refine (h.agrees_matchTokenM heredocOpener).bind ?_
  rintro ⟨_ | _, inside⟩ - hinside
  · exact .pure hinside
  · refine (hinside.agrees_skipSpaces none).bind fun spaces _ hspaces ↦
      hspaces.agrees_takeLine.bind fun line _ hline ↦ ?_
    split
    · exact .pure hline
    · exact .pure (h.of_here_eq rfl)

theorem agrees_beginAnchored (h : cursor.HasRoom) (opener : Text) :
    Agrees (cursor.beginAnchored opener) (cursor.beginAnchored opener) (·.2.HasRoom) := by
  rw [beginAnchored, beginAnchored]
  split
  · refine (h.agrees_matchTokenM opener).bind ?_
    rintro ⟨_ | _, inside⟩ - hinside
    · exact .pure (h.of_here_eq rfl)
    · refine hinside.agrees_eatLineBreak.bind ?_
      rintro ⟨_ | _, after⟩ - hafter
      · exact .pure (h.of_here_eq rfl)
      · exact .pure hafter
  · exact .pure h

theorem agrees_beginPlain (h : cursor.HasRoom) (form : Delimited) :
    Agrees (cursor.beginPlain form) (cursor.beginPlain form) (·.2.HasRoom) := by
  refine (h.agrees_matchFirst form.openers).bind ?_
  rintro ⟨_ | _, inside⟩ - hinside
  · exact .pure hinside
  · exact .pure hinside

theorem agrees_beginBlock (h : cursor.HasRoom) (block : Block) :
    Agrees (cursor.beginBlock block) (cursor.beginBlock block) (·.2.HasRoom) := by
  rcases block with form | -
  · cases form with
    | anchored opener closer => exact h.agrees_beginAnchored opener
    | _ => exact h.agrees_beginPlain _
  · exact h.agrees_beginHeredoc

theorem agrees_beginFirst (h : cursor.HasRoom) (blocks : List Block) :
    Agrees (cursor.beginFirst blocks) (cursor.beginFirst blocks) (·.2.HasRoom) := by
  induction blocks generalizing cursor with
  | nil => exact .pure h
  | cons block blocks ih =>
    refine (h.agrees_beginBlock block).bind ?_
    rintro ⟨- | state, after⟩ - hafter
    · exact ih hafter
    · exact .pure hafter

end HasRoom

end Cursor

/-! ## The loop of a scan -/

/-- All positions of a survey can be shown. -/
structure Survey.IsShowable (survey : Survey) : Prop where
  /-- Where the comments begin can be shown. -/
  comments : ∀ comment ∈ survey.comments, comment.start.IsShowable
  /-- Where the block that does not close begins can be shown. -/
  unterminated : ∀ block ∈ survey.unterminated, block.position.IsShowable

/-- The invariant of a scan. -/
structure ScanRoom (state : Cursor × List Comment) : Prop where
  /-- There is room for what is unread. -/
  cursor : state.1.HasRoom
  /-- The cursor is where its byte offset says. -/
  hasRead : ∃ front, state.1.HasRead front
  /-- Where the comments begin can be shown. -/
  comments : ∀ comment ∈ state.2, comment.start.IsShowable

theorem Cursor.HasRoom.isShowable {cursor : Cursor} (h : cursor.HasRoom) (hne : cursor.rest ≠ []) :
    cursor.position.IsShowable := by
  obtain ⟨c, rest, hrest⟩ := List.exists_cons_of_ne_nil hne
  refine Position.HasRoom.isShowable h ?_
  rw [hrest, Text.byteLength_cons]
  exact Nat.add_pos_left c.utf8Size_pos _

/-- **A pass of a scan exceeds no counter.** -/
theorem ScanRoom.agrees_scanPass {state : Cursor × List Comment} (h : ScanRoom state)
    (blocks : List Block) :
    Agrees (scanPass blocks state) (scanPass blocks state)
      (Pass.Keeps ScanRoom Survey.IsShowable) := by
  obtain ⟨cursor, found⟩ := state
  obtain ⟨hroom, ⟨front, hread⟩, hfound⟩ := h
  dsimp only at hroom hread hfound
  rw [scanPass, scanPass]
  split
  · exact .pure ⟨hfound, fun _ hnone ↦ absurd hnone (Option.not_mem_none _)⟩
  next hend =>
  -- something is left to read, so that the place where a block may begin can be shown
  have hne : cursor.rest ≠ [] := mt Cursor.atEnd_of_nil hend
  have hshown := hroom.isShowable hne
  refine (hroom.agrees_beginFirst blocks).bind ?_
  rintro ⟨begun, inside⟩ hbegin hinside
  rw [Cursor.beginFirst_eq_openFirst] at hbegin
  rcases hopen : cursor.openFirst blocks with ⟨_ | opened, after⟩
  · rw [hopen] at hbegin
    obtain ⟨rfl, rfl⟩ := Prod.mk.inj hbegin
    have hpasses := Cursor.passes_openFirst_of_none hopen
    obtain ⟨c, rest, hrest⟩ := List.exists_cons_of_ne_nil hne
    have hnext := hpasses.trans (Cursor.passes_take_one (hpasses.rest_eq hrest))
    refine (hinside.agrees_take 1).bind ?_
    intro next htake hafter
    rw [Cursor.run_reading_take] at htake
    obtain rfl := htake
    exact .pure ⟨hafter, ⟨_, hnext.hasRead hread⟩, hfound⟩
  · rw [hopen] at hbegin
    obtain ⟨rfl, rfl⟩ := Prod.mk.inj hbegin
    obtain ⟨opener, hopener, hpasses⟩ := Cursor.passes_openFirst_of_some hopen
    obtain ⟨⟨body, hclose⟩, -⟩ := after.passes_closeBlock opened
    have hforward := hpasses.byteOffset_lt hopener
    have hinsideRead := hpasses.hasRead hread
    dsimp only [Option.map_some]
    refine (hinside.agrees_endBlock hinsideRead (Nat.zero_lt_of_lt hforward) _ opened).bind ?_
    intro stop hstop _
    rw [Cursor.endBlock_eq_closeBlock hinsideRead] at hstop
    obtain rfl := hstop
    dsimp only
    split
    · refine .pure ⟨hinside.passes hclose, ⟨_, hclose.hasRead hinsideRead⟩, ?_⟩
      dsimp only
      split
      · intro comment hcomment
        rcases List.mem_append.mp hcomment with hold | hnew
        · exact hfound comment hold
        · rw [List.mem_singleton.mp hnew]
          exact hshown
      · exact hfound
    · refine .pure ⟨hfound, ?_⟩
      rintro _ ⟨⟩
      exact hshown

/-! ## The scan -/

section Counted

variable {m : Type → Type} [Monad m] [Counting m]

/-- Enter a comment if it is kept. The line is shown of every comment. -/
def enterCommentM (config : ScanConfig) (entries : List (Nat × Text)) (comment : Comment) :
    m (List (Nat × Text)) := do
  let line ← Counting.count (comment.start.line + 1)
  match comment.content? config with
  | some content => return enterLine line content entries
  | none => return entries

/-- Scan a source step by step, with all that is counted. There is no result if the loop does not
end. -/
def Source.scanM (source : Source) (profile : Profile) (config : ScanConfig) :
    m (Option FileScan) := do
  match ← runLoop (scanPass profile.blocks) (source.text.length + 1) (source.cursor, []) with
  | none => return none
  | some survey =>
    let entries ← survey.comments.foldlM (enterCommentM config) []
    return some {
      origin := source.origin
      blocks := entries.reverse.map fun (line, content) ↦ ⟨source.origin, line, content⟩
      unterminated := survey.unterminated }

end Counted

theorem run_enterCommentM (config : ScanConfig) (entries : List (Nat × Text)) (comment : Comment) :
    Id.run (enterCommentM config entries comment) = enterComment config entries comment := by
  rw [enterCommentM, enterComment, Id.run_bind]
  cases comment.content? config <;> rfl

theorem agrees_enterComments (config : ScanConfig) {comments : List Comment}
    (h : ∀ comment ∈ comments, comment.start.IsShowable) (entries : List (Nat × Text)) :
    Agrees (comments.foldlM (enterCommentM config) entries)
      (comments.foldlM (enterCommentM config) entries) fun _ ↦ True := by
  induction comments generalizing entries with
  | nil => exact .pure trivial
  | cons comment comments ih =>
    have hline : Agrees (Counting.count (comment.start.line + 1))
        (Counting.count (comment.start.line + 1)) fun _ ↦ True :=
      ⟨(h comment List.mem_cons_self).displayLine?, trivial⟩
    have henter : Agrees (enterCommentM config entries comment)
        (enterCommentM config entries comment) fun _ ↦ True := by
      refine hline.bind fun line _ _ ↦ ?_
      split
      · exact .pure trivial
      · exact .pure trivial
    rw [List.foldlM_cons, List.foldlM_cons]
    exact henter.bind fun next _ _ ↦
      ih (fun other hother ↦ h other (List.mem_cons_of_mem _ hother)) next

namespace Source

/-- Scan a source, if no counter is exceeded. -/
def scan? (source : Source) (profile : Profile) (config : ScanConfig) : Option FileScan :=
  Option.join (source.scanM profile config)

variable {source : Source}

theorem hasRoom_of_ofBytes {bytes : Bytes} {origin : Origin} {start : Position}
    (hstart : start.line + start.character ≤ start.byteOffset)
    (h : ofBytes bytes origin start = .ok source) : source.cursor.HasRoom := by
  by_cases hlarge : maxOffset < start.byteOffset + bytes.length
  · rw [ofBytes, if_pos hlarge] at h
    cases h
  · obtain ⟨text, -, length, hresult⟩ := exists_ofBytes_eq origin (Nat.not_lt.mp hlarge)
    by_cases heq : Utf8.encode text = bytes
    · rw [hresult, if_pos heq] at h
      rw [← heq, Utf8.length_encode] at hlarge
      cases h
      exact ⟨hstart, Nat.not_lt.mp hlarge⟩
    · rw [hresult, if_neg heq] at h
      cases h

theorem hasRoom_of_ofText {text : Text} {origin : Origin} (h : ofText text origin = .ok source) :
    source.cursor.HasRoom := by
  by_cases hlarge : maxOffset < text.byteLength
  · rw [ofText, if_pos hlarge] at h
    cases h
  · rw [ofText, if_neg hlarge] at h
    cases h
    refine ⟨Nat.le_refl _, ?_⟩
    change 0 + text.byteLength ≤ maxOffset
    omega

theorem fits_of_mem_run (h : source.cursor.HasRoom) {steps : List Cursor.Step} {cursor : Cursor}
    (hcursor : cursor ∈ (source.run steps).cursors) : cursor.position.Fits := by
  obtain ⟨index, -, rfl⟩ := exists_index_of_mem_run hcursor
  have hrest : source.cursor.rest = source.text.take index.here ++ source.text.drop index.here :=
    (List.take_append_drop _ _).symm
  exact (h.read hrest).fits

theorem run_scanM (source : Source) (profile : Profile) (config : ScanConfig) :
    Id.run (source.scanM profile config) = some (source.scan profile config) := by
  have hread : source.cursor.HasRead [] := ⟨rfl, rfl⟩
  have hends : Id.run (runLoop (scanPass profile.blocks) (source.text.length + 1)
      (source.cursor, [])) = some (survey profile.blocks source.cursor) :=
    scanPass_ends hread [] _ (Nat.lt_succ_self _)
  rw [scanM, Id.run_bind, hends]
  dsimp only
  rw [Id.run_bind, List.idRun_foldlM]
  simp only [run_enterCommentM]
  rfl

theorem agrees_survey (h : source.cursor.HasRoom) (blocks : List Block) :
    Agrees (runLoop (scanPass blocks) (source.text.length + 1) (source.cursor, []))
      (runLoop (scanPass blocks) (source.text.length + 1) (source.cursor, []))
      (∀ found ∈ ·, found.IsShowable) := by
  have hstart : ScanRoom (source.cursor, []) :=
    ⟨h, ⟨[], rfl, rfl⟩, fun _ hnone ↦ absurd hnone List.not_mem_nil⟩
  exact agrees_runLoop ScanRoom (fun _ hstate ↦ hstate.agrees_scanPass blocks) _ hstart

theorem isShowable_survey (h : source.cursor.HasRoom) (blocks : List Block) :
    (survey blocks source.cursor).IsShowable := by
  have hread : source.cursor.HasRead [] := ⟨rfl, rfl⟩
  exact (agrees_survey h blocks).keeps _ (scanPass_ends hread [] _ (Nat.lt_succ_self _))

theorem scan?_eq (h : source.cursor.HasRoom) (profile : Profile) (config : ScanConfig) :
    source.scan? profile config = some (source.scan profile config) := by
  have hscan : Agrees (source.scanM profile config) (source.scanM profile config)
      fun _ ↦ True := by
    refine (agrees_survey h profile.blocks).bind ?_
    rintro (- | found) - hshown
    · exact .pure trivial
    · exact (agrees_enterComments config (hshown _ rfl).comments []).bind fun _ _ _ ↦ .pure trivial
  rw [scan?, hscan.eq, run_scanM]
  rfl

theorem startLine_lt (h : source.cursor.HasRoom) {profile : Profile} {config : ScanConfig}
    {block : ExtractedBlock} (hblock : block ∈ (source.scan profile config).blocks) :
    block.startLine < 4294967296 := by
  obtain ⟨comment, hcomment, hline, -⟩ := source.exists_comment_of_mem_blocks profile config hblock
  have hshown := (isShowable_survey h profile.blocks).comments comment hcomment
  rw [hline]
  exact lt_of_counter? hshown.displayLine?

/-- **No counter is ever exceeded.** Bytes at a place of a document where lines and characters are
no more than bytes are checked without exceeding a counter of thirty-two bits, and if they are
malformed, the position of the fault fits and can be shown. If they make a source, and likewise for
a text that is a whole document, every cursor of every run over the source has a position that fits.
A scan with every sum checked, that of the depth of nested comments included, and with nothing ever
taken from a depth of zero, has a result, which is that of the scan. The lines of its blocks fit,
and the position of a block that does not close can be shown. -/
theorem counters_never_exceeded (bytes : Bytes) (origin : Origin) {start : Position}
    (hstart : start.line + start.character ≤ start.byteOffset) :
    ofBytes? bytes origin start = some (ofBytes bytes origin start)
      ∧ (∀ refused position length,
        ofBytes bytes origin start = .error (.invalidUtf8 refused position length) →
          position.Fits ∧ position.IsShowable)
      ∧ ∀ source : Source,
        (ofBytes bytes origin start = .ok source ∨ ∃ text, ofText text origin = .ok source) →
        (∀ steps, ∀ cursor ∈ (source.run steps).cursors, cursor.position.Fits)
        ∧ ∀ (profile : Profile) (config : ScanConfig),
          source.scan? profile config = some (source.scan profile config)
          ∧ (∀ block ∈ (source.scan profile config).blocks, block.startLine < 4294967296)
          ∧ ∀ block ∈ (source.scan profile config).unterminated, block.position.IsShowable := by
  obtain ⟨hchecked, hfault⟩ := agrees_ofBytesM bytes origin hstart
  rw [run_ofBytesM] at hchecked hfault
  refine ⟨hchecked, hfault, ?_⟩
  intro source hsource
  have hroom : source.cursor.HasRoom := by
    rcases hsource with hok | ⟨text, hok⟩
    · exact hasRoom_of_ofBytes hstart hok
    · exact hasRoom_of_ofText hok
  refine ⟨fun _ _ hcursor ↦ fits_of_mem_run hroom hcursor, ?_⟩
  intro profile config
  exact ⟨scan?_eq hroom profile config, fun _ hblock ↦ startLine_lt hroom hblock,
    (isShowable_survey hroom profile.blocks).unterminated⟩

/-- Nested comments in the last bytes that a document can have. -/
theorem counters_never_exceeded_last_bytes :
    let start : Position := ⟨0, 4294967287, 4294967287⟩
    let bytes : Bytes := Utf8.encode "(((a))) ".toList
    let profile : Profile := ⟨"a", "A", [], [.delimited (.nested ['('] [')'] none)]⟩
    let source : Source := ⟨"(((a))) ".toList, ⟨"a"⟩, start⟩
    ofBytes bytes ⟨"a"⟩ start = .ok source
      ∧ source.cursor.takeRest.2.position.byteOffset = 4294967295
      ∧ source.scan? profile ⟨1⟩ = some (source.scan profile ⟨1⟩)
      ∧ (source.scan profile ⟨1⟩).blocks = [⟨⟨"a"⟩, 1, "((a))".toList⟩] := by
  intro start bytes profile source
  have hsource : ofBytes bytes ⟨"a"⟩ start = .ok source := by
    decide +kernel +zetaReduce
  have hstart : start.line + start.character ≤ start.byteOffset := by decide
  have hscan := ((counters_never_exceeded bytes ⟨"a"⟩ hstart).2.2 source (Or.inl hsource)).2
    profile ⟨1⟩
  exact ⟨hsource, by decide +kernel, hscan.1, by decide +kernel⟩

end Source

end CommentBlocks
