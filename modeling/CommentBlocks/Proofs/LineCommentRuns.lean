import CommentBlocks.Language.Builtin
import CommentBlocks.Proofs.SeekPoints
import CommentBlocks.Proofs.TruncatedBlocks

/-!
# Runs of line comments

Two rules say what begins on a line. Outside of blocks it is the profile: the first of its blocks
that begins there, which is why `--[[` is listed before `--`. In a run of line comments it is the
run itself: the next line belongs to it if the line begins with its opener, whatever the profile
says.

The rules disagree on openers that start with the opener of the run, and in the built-in languages
that is so for every block comment listed before a line comment (`Builtin.listed_before`). Such a
block comment is not seen on the line after a line comment, where its first line becomes one more
line of the run and its other lines are read as code.
-/

namespace CommentBlocks

variable {opener text line : Text}

/-! ## The lines of a run -/

/-- The lines of the run of line comments in the text behind its first opener. A line is given by
the text behind its opener. -/
inductive InRun (opener text : Text) : Text → Prop where
  /-- The line that the run begins with. -/
  | first : InRun opener text text
  /-- The line after a line of the run, if the opener follows its indentation. -/
  | next {line more : Text} (hline : InRun opener text line)
    (hmore : Text.afterToken? opener ((Text.splitLine line).2.dropWhile isSpace) = some more) :
    InRun opener text more

theorem chainEnding_splitLine (opener text : Text) :
    (Text.splitLine text).1 ∈ (chainEnding opener text).lines
      ∧ (Text.splitLine text).1 <+: (chainEnding opener text).read := by
  by_cases hlast : (Text.splitLine text).2 = []
  · rw [chainEnding_of_last hlast]
    exact ⟨List.mem_singleton_self _, List.prefix_rfl⟩
  · cases hmore : Text.afterToken? opener ((Text.splitLine text).2.dropWhile isSpace) with
    | none =>
      rw [chainEnding_of_other hlast hmore]
      exact ⟨List.mem_singleton_self _, List.prefix_append _ _⟩
    | some more =>
      rw [chainEnding_of_more hmore, Ending.read, List.append_assoc]
      exact ⟨List.mem_cons_self, List.prefix_append _ _⟩

namespace InRun

theorem chainEnding_eq (h : InRun opener text line) :
    ∃ front lines, text = front ++ line
      ∧ (chainEnding opener text).lines = lines ++ (chainEnding opener line).lines
      ∧ (chainEnding opener text).read = front ++ (chainEnding opener line).read := by
  induction h with
  | first => exact ⟨[], [], rfl, rfl, rfl⟩
  | @next line more _ hmore ih =>
    obtain ⟨front, lines, htext, hlines, hread⟩ := ih
    have hline : line = (Text.splitLine line).1
        ++ ((Text.splitLine line).2.takeWhile isSpace ++ (opener ++ more)) := by
      rw [← (Text.afterToken?_eq_some_iff.mp hmore).2, List.takeWhile_append_dropWhile,
        Text.splitLine_append]
    refine ⟨front ++ ((Text.splitLine line).1
      ++ ((Text.splitLine line).2.takeWhile isSpace ++ opener)),
      lines ++ [(Text.splitLine line).1], ?_, ?_, ?_⟩
    · calc text = front ++ line := htext
        _ = front ++ ((Text.splitLine line).1
            ++ ((Text.splitLine line).2.takeWhile isSpace ++ (opener ++ more))) :=
          congrArg (front ++ ·) hline
        _ = _ := by simp only [List.append_assoc]
    · rw [hlines, chainEnding_of_more hmore, List.append_assoc, List.singleton_append]
    · rw [hread, chainEnding_of_more hmore]
      simp only [Ending.read, List.append_assoc]

/-- **A run of line comments takes in each of its lines**: the line is part of the comment, and the
scan goes on behind it. -/
theorem survey_eq {blocks : List Block} {cursor inside : Cursor}
    (hopen : cursor.openFirst blocks = (some (.delimited (.line opener)), inside))
    (h : InRun opener inside.rest line) :
    ∃ lines after,
      survey blocks cursor = (survey blocks after).following [⟨cursor.position, lines⟩]
        ∧ Text.dropMark opener (Text.splitLine line).1 ∈ lines
        ∧ after.rest <:+ (Text.splitLine line).2 := by
  obtain ⟨front, others, htext, hlines, hread⟩ := h.chainEnding_eq
  obtain ⟨hmem, tail, htail⟩ := chainEnding_splitLine opener line
  obtain ⟨rest, hrest⟩ := eq_append_of_chainEnding opener line
  have hne : cursor.here.rest ≠ [] := by
    intro hnil
    have hless := Cursor.length_rest_openFirst_of_some hopen
    rw [hnil] at hless
    exact absurd hless (Nat.not_lt_zero _)
  refine ⟨_, (inside.closeBlock (.delimited (.line opener))).2,
    survey_of_openFirst_eq_some hne hopen, ?_, ?_⟩
  · rw [hlines, List.map_append, List.mem_append]
    exact Or.inr (List.mem_map_of_mem hmem)
  · -- the line is read to its end, perhaps with lines after it
    have htext : inside.rest = (chainEnding opener inside.rest).read ++ rest := by
      rw [hread, List.append_assoc, ← hrest]
      exact htext
    have hafter : (inside.closeBlock (.delimited (.line opener))).2.rest = rest :=
      calc inside.rest.drop (chainEnding opener inside.rest).read.length
        _ = ((chainEnding opener inside.rest).read ++ rest).drop
            (chainEnding opener inside.rest).read.length := by rw [← htext]
        _ = rest := List.drop_left
    rw [hafter]
    refine ⟨tail, (List.append_right_inj (Text.splitLine line).1).mp ?_⟩
    rw [← List.append_assoc, htail, ← hrest, Text.splitLine_append]

end InRun

/-! ## Block comments listed before line comments -/

namespace Builtin

theorem pairwise_blocks : ∀ profile ∈ profiles, profile.blocks.Pairwise fun block line ↦
    block.kind = .blockComment → line.kind = .lineComment →
      profile.blocks = [doubleQuoted, singleQuoted, block, line]
          ∧ block = .commentWithMargin "--[[" "]]" "-" ∧ line = .line "--"
        ∨ profile.blocks
            = [.raw ["r\"", "R\""] "\"", .fence "\"\"\"", doubleQuoted, block, line]
          ∧ block = .commentWithMargin "#[" "]#" "#" ∧ line = .line "#" := by
  decide +kernel

/-- **The opener of a block comment that is listed before a line comment starts with the opener of
that line comment**, and outside of blocks the block comment is the one that begins there. -/
theorem listed_before {profile : Profile} (hprofile : profile ∈ profiles) {form : Delimited}
    (hkind : form.kind = .blockComment)
    (horder : [.delimited form, .delimited (.line opener)].Sublist profile.blocks) :
    ∃ token, form.openers = [token] ∧ Text.startsWith opener token = true
      ∧ ∀ place : Place, Text.startsWith token place.rest = true →
        profile.blocks.findSome? place.opening? = some (.delimited form, token) := by
  have hcases := List.pairwise_pair.mp ((pairwise_blocks profile hprofile).sublist horder) hkind rfl
  rcases hcases with ⟨hblocks, ⟨⟩, ⟨⟩⟩ | ⟨hblocks, ⟨⟩, ⟨⟩⟩
  · refine ⟨"--[[".toList, rfl, rfl, ?_⟩
    rintro ⟨position, text⟩ hstarts
    obtain ⟨-, rest, rfl⟩ := Text.startsWith_iff.mp hstarts
    rw [hblocks]
    rfl
  · refine ⟨"#[".toList, rfl, rfl, ?_⟩
    rintro ⟨position, text⟩ hstarts
    obtain ⟨-, rest, rfl⟩ := Text.startsWith_iff.mp hstarts
    rw [hblocks]
    rfl

end Builtin

/-- **A run of line comments does not stop at a block comment.** In a built-in language, let a block
comment be listed before a line comment, let a scan be in a run of these line comments, and let the
next line begin with the opener of the block comment. Then that line is taken in as one more line of
the run. Outside of the run the block comment would be the one to begin there. -/
theorem run_takes_in_block_opener {profile : Profile} (hprofile : profile ∈ Builtin.profiles)
    {form : Delimited} {token : Text} (hkind : form.kind = .blockComment)
    (htoken : token ∈ form.openers)
    (horder : [.delimited form, .delimited (.line opener)].Sublist profile.blocks)
    {cursor inside : Cursor}
    (hopen : cursor.openFirst profile.blocks = (some (.delimited (.line opener)), inside))
    (hrun : InRun opener inside.rest line)
    (hnext : Text.startsWith token ((Text.splitLine line).2.dropWhile isSpace) = true) :
    (∃ more lines after, (Text.splitLine line).2.dropWhile isSpace = opener ++ more
      ∧ survey profile.blocks cursor
        = (survey profile.blocks after).following [⟨cursor.position, lines⟩]
      ∧ Text.dropMark opener (Text.splitLine more).1 ∈ lines
      ∧ after.rest <:+ (Text.splitLine more).2)
    ∧ ∀ other : Cursor, other.rest = (Text.splitLine line).2.dropWhile isSpace →
      (other.openFirst profile.blocks).1 = some (.delimited form) := by
  obtain ⟨same, hopeners, hstarts, hfirst⟩ := Builtin.listed_before hprofile hkind horder
  obtain rfl : token = same := by
    rw [hopeners] at htoken
    exact List.mem_singleton.mp htoken
  constructor
  · obtain ⟨hopener, tail, htail⟩ := Text.startsWith_iff.mp hstarts
    obtain ⟨-, rest, hrest⟩ := Text.startsWith_iff.mp hnext
    have hmore : (Text.splitLine line).2.dropWhile isSpace = opener ++ (tail ++ rest) := by
      rw [hrest, htail, List.append_assoc]
    obtain ⟨lines, after, hsurvey, hmem, hafter⟩ :=
      (hrun.next (Text.afterToken?_eq_some_iff.mpr ⟨hopener, hmore⟩)).survey_eq hopen
    exact ⟨tail ++ rest, lines, after, hmore, hsurvey, hmem, hafter⟩
  · intro other hother
    obtain ⟨after, hafter, -⟩ := other.openFirst_eq profile.blocks
    rw [← hother] at hnext
    rw [hafter, hfirst other.here hnext]
    rfl

/-- In Lua, the first line of a block comment is taken for the second line of a run. -/
theorem run_takes_in_block_opener_lua :
    ∃ profile ∈ Builtin.profiles, profile.id = "lua"
      ∧ ∃ lines, ∃ others : Survey,
        survey profile.blocks (Place.cursor ⟨.zero, "-- a\n --[[b\n]]".toList⟩)
          = others.following [⟨.zero, lines⟩]
        ∧ "[[b\n".toList ∈ lines := by
  obtain ⟨profile, hprofile, hid, hblocks⟩ : ∃ profile ∈ Builtin.profiles, profile.id = "lua"
      ∧ profile.blocks = [Builtin.doubleQuoted, Builtin.singleQuoted,
        .commentWithMargin "--[[" "]]" "-", .line "--"] := by
    decide +kernel
  let cursor : Cursor := Place.cursor ⟨.zero, "-- a\n --[[b\n]]".toList⟩
  let form : Delimited := .comment "--[[".toList "]]".toList (some "-".toList)
  have hkind : form.kind = .blockComment := rfl
  have hopen : cursor.openFirst profile.blocks
      = (some (.delimited (.line "--".toList)), (cursor.openFirst profile.blocks).2) := by
    rw [hblocks]
    rfl
  have hinside : (cursor.openFirst profile.blocks).2.rest = " a\n --[[b\n]]".toList := by
    rw [hblocks]
    rfl
  obtain ⟨⟨more, lines, after, hmore, hsurvey, hmem, -⟩, -⟩ :=
    run_takes_in_block_opener hprofile hkind (List.mem_singleton_self _)
      (by rw [hblocks]; decide) hopen .first (by rw [hinside]; decide)
  rw [hinside] at hmore
  have hsame : "--".toList ++ "[[b\n]]".toList = "--".toList ++ more := hmore
  obtain rfl : "[[b\n]]".toList = more := List.append_cancel_left hsame
  exact ⟨profile, hprofile, hid, lines, _, hsurvey, hmem⟩

/-- A block comment is lost behind a line comment, and found if a blank line stands between. -/
theorem block_comment_lost_after_line_comment :
    let source (text : String) : Source := ⟨text.toList, ⟨"test"⟩, .zero⟩
    let block (line : Nat) (content : String) : ExtractedBlock := ⟨⟨"test"⟩, line, content.toList⟩
    ∃ profile ∈ Builtin.profiles, profile.id = "lua"
      ∧ ((source "-- users\n--[[\n@api get /users\n]]\n").scan profile {}).blocks
        = [block 1 "users\n[[\n"]
      ∧ ((source "-- users\n\n--[[\n@api get /users\n]]\n").scan profile {}).blocks
        = [block 1 "users\n", block 3 "@api get /users\n"] := by
  decide +kernel

end CommentBlocks
