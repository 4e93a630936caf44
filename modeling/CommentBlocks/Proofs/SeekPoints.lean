import CommentBlocks.Comment.Scan
import CommentBlocks.Proofs.BlockText
import CommentBlocks.Proofs.Places

/-!
# The places where a scan looks for blocks

A scan takes turns. Each begins at a place outside all blocks, tries the blocks of the profile there
and ends at a later such place, unless the text is used up or the block found does not close. Those
places are the *seek points* of the scan.

`Place.turn` is one turn, as a function of the place alone: the position and the text unread there.
The cursor that `survey` carries knows more, namely the text already read and a step to undo, and
the first thing proved is that none of it matters (`survey_congr`). `Reaches` is the run, from one
seek point to another, with the comments found on the way.
-/

namespace CommentBlocks

/-! ## One turn -/

/-- What a turn comes to. -/
inductive Turn where
  /-- Nothing is left to read. -/
  | finished
  /-- The scan goes on at `next`; it may have read a comment. -/
  | moved (comment : Option Comment) (next : Place)
  /-- A block does not close. -/
  | stopped (block : Unterminated)
deriving DecidableEq

namespace Place

variable (place : Place)

/-- The block that begins here and its opener, if the block does. -/
def opening? (block : Block) : Option (OpenBlock × Text) :=
  match block.openingAt place with
  | .opened opened body last => some (opened, body ++ last)
  | .refused _ => none

def turn (blocks : List Block) : Turn :=
  if place.rest = [] then .finished
  else
    match blocks.findSome? place.opening? with
    | none => .moved none (place.after (place.rest.take 1))
    | some (block, opener) =>
      match block.ending? (place.after opener).rest with
      | some ending =>
        .moved (if block.kind.isComment then some ⟨place.position, ending.lines⟩ else none)
          ((place.after opener).after ending.read)
      | none => .stopped ⟨place.position, block.kind⟩

/-- A reader that knows nothing but its place. -/
def cursor : Cursor := ⟨place.rest, place.position.byteOffset, place, none⟩

@[simp] theorem here_cursor : place.cursor.here = place := rfl

variable {place} {blocks : List Block}

theorem openingAt_of_opening? {block : Block} {opened : OpenBlock} {opener : Text}
    (h : place.opening? block = some (opened, opener)) :
    ∃ body last, block.openingAt place = .opened opened body last ∧ opener = body ++ last := by
  unfold opening? at h
  split at h
  · next hopening =>
    rw [Option.some.injEq, Prod.mk.injEq] at h
    exact ⟨_, _, h.1 ▸ hopening, h.2.symm⟩
  · simp at h

theorem opening?_eq_some {block : Block} {opened : OpenBlock} {opener : Text}
    (h : place.opening? block = some (opened, opener)) :
    opener ≠ [] ∧ ∃ rest, place.rest = opener ++ rest := by
  obtain ⟨body, last, hopening, rfl⟩ := openingAt_of_opening? h
  exact Block.openingAt_opened hopening

theorem findSome?_opening?_eq_some {opened : OpenBlock} {opener : Text}
    (h : blocks.findSome? place.opening? = some (opened, opener)) :
    opener ≠ [] ∧ ∃ rest, place.rest = opener ++ rest := by
  obtain ⟨block, -, hblock⟩ := List.exists_of_findSome?_eq_some h
  exact opening?_eq_some hblock

theorem turn_of_no_opening {c : Char} {rest : Text} (hrest : place.rest = c :: rest)
    (h : blocks.findSome? place.opening? = none) :
    place.turn blocks = .moved none (place.after [c]) := by
  rw [turn, if_neg (hrest ▸ List.cons_ne_nil c rest), h, hrest]
  rfl

theorem turn_of_opening {opened : OpenBlock} {opener text : Text}
    (hrest : place.rest = opener ++ text)
    (hopening : blocks.findSome? place.opening? = some (opened, opener)) :
    place.turn blocks
      = match opened.ending? text with
        | some ending =>
          .moved (if opened.kind.isComment then some ⟨place.position, ending.lines⟩ else none)
            (place.after (opener ++ ending.read))
        | none => .stopped ⟨place.position, opened.kind⟩ := by
  have hne : place.rest ≠ [] := by
    rw [hrest]
    intro hnil
    exact (findSome?_opening?_eq_some hopening).1 (List.append_eq_nil_iff.mp hnil).1
  have hafter : (place.after opener).rest = text := by
    rw [Place.after, hrest, List.drop_left]
  rw [turn, if_neg hne, hopening]
  simp only [hafter, Place.after_append]

theorem turn_of_ending {opened : OpenBlock} {opener text : Text} {ending : Ending}
    (hrest : place.rest = opener ++ text)
    (hopening : blocks.findSome? place.opening? = some (opened, opener))
    (hending : opened.ending? text = some ending) :
    place.turn blocks
      = .moved (if opened.kind.isComment then some ⟨place.position, ending.lines⟩ else none)
        (place.after (opener ++ ending.read)) := by
  rw [turn_of_opening hrest hopening, hending]

theorem turn_of_no_ending {opened : OpenBlock} {opener text : Text}
    (hrest : place.rest = opener ++ text)
    (hopening : blocks.findSome? place.opening? = some (opened, opener))
    (hending : opened.ending? text = none) :
    place.turn blocks = .stopped ⟨place.position, opened.kind⟩ := by
  rw [turn_of_opening hrest hopening, hending]

theorem turn_eq_moved_cases {comment : Option Comment} {next : Place}
    (h : place.turn blocks = .moved comment next) :
    (∃ c rest, place.rest = c :: rest ∧ blocks.findSome? place.opening? = none
        ∧ comment = none ∧ next = place.after [c])
      ∨ ∃ opened opener ending rest, place.rest = opener ++ (ending.read ++ rest)
        ∧ blocks.findSome? place.opening? = some (opened, opener)
        ∧ opened.ending? (ending.read ++ rest) = some ending
        ∧ comment = (if opened.kind.isComment then some ⟨place.position, ending.lines⟩ else none)
        ∧ next = place.after (opener ++ ending.read) := by
  by_cases hend : place.rest = []
  · rw [turn, if_pos hend] at h
    simp at h
  obtain ⟨c, rest, hrest⟩ := List.exists_cons_of_ne_nil hend
  cases hopening : blocks.findSome? place.opening? with
  | none =>
    rw [turn_of_no_opening hrest hopening, Turn.moved.injEq] at h
    exact Or.inl ⟨c, rest, hrest, rfl, h.1.symm, h.2.symm⟩
  | some found =>
    obtain ⟨opened, opener⟩ := found
    obtain ⟨-, text, htext⟩ := findSome?_opening?_eq_some hopening
    cases hending : opened.ending? text with
    | none =>
      rw [turn_of_no_ending htext hopening hending] at h
      simp at h
    | some ending =>
      rw [turn_of_ending htext hopening hending, Turn.moved.injEq] at h
      obtain ⟨more, rfl⟩ := OpenBlock.ending?_eq_some hending
      exact Or.inr ⟨opened, opener, ending, more, htext, rfl, hending, h.1.symm, h.2.symm⟩

theorem turn_eq_moved {comment : Option Comment} {next : Place}
    (h : place.turn blocks = .moved comment next) :
    ∃ read rest, read ≠ [] ∧ place.rest = read ++ rest ∧ next = place.after read := by
  rcases turn_eq_moved_cases h with
    ⟨c, rest, hrest, -, -, hnext⟩ | ⟨opened, opener, ending, rest, hrest, hopening, -, -, hnext⟩
  · exact ⟨[c], rest, List.cons_ne_nil c [], hrest, hnext⟩
  · refine ⟨opener ++ ending.read, rest, ?_, ?_, hnext⟩
    · intro hnil
      exact (findSome?_opening?_eq_some hopening).1 (List.append_eq_nil_iff.mp hnil).1
    · rw [hrest, List.append_assoc]

theorem length_rest_lt_of_turn {comment : Option Comment} {next : Place}
    (h : place.turn blocks = .moved comment next) : next.rest.length < place.rest.length := by
  obtain ⟨read, rest, hne, hrest, rfl⟩ := turn_eq_moved h
  have hread := List.length_pos_iff.mpr hne
  rw [Place.length_rest_after, hrest, List.length_append]
  omega

theorem position_of_turn_eq_stopped {block : Unterminated}
    (h : place.turn blocks = .stopped block) : block.position = place.position := by
  unfold turn at h
  split at h
  · simp at h
  · split at h
    · simp at h
    · split at h
      · simp at h
      · rw [Turn.stopped.injEq] at h
        rw [← h]

end Place

/-! ## A scan takes turns -/

namespace Cursor

variable {cursor : Cursor}

theorem openBlock_of_opening?_eq_none {block : Block} (h : cursor.here.opening? block = none) :
    ∃ same, cursor.openBlock block = (none, same) ∧ same.here = cursor.here := by
  unfold Place.opening? at h
  unfold openBlock
  split at h
  · simp at h
  · next returned hopening =>
    rw [hopening]
    refine ⟨_, rfl, ?_⟩
    cases returned <;> rfl

theorem openBlock_of_opening?_eq_some {block : Block} {opened : OpenBlock} {opener : Text}
    (h : cursor.here.opening? block = some (opened, opener)) :
    ∃ inside, cursor.openBlock block = (some opened, inside)
      ∧ inside.here = cursor.here.after opener := by
  unfold Place.opening? at h
  unfold openBlock
  split at h
  · next hopening =>
    rw [Option.some.injEq, Prod.mk.injEq] at h
    rw [hopening, ← h.1, ← h.2]
    exact ⟨_, rfl, rfl⟩
  · simp at h

theorem openFirst_eq (cursor : Cursor) (blocks : List Block) :
    ∃ after, cursor.openFirst blocks
        = ((blocks.findSome? cursor.here.opening?).map (·.1), after)
      ∧ after.here
        = cursor.here.after (((blocks.findSome? cursor.here.opening?).map (·.2)).getD []) := by
  induction blocks generalizing cursor with
  | nil => exact ⟨cursor, rfl, (Place.after_nil _).symm⟩
  | cons block blocks ih =>
    rw [List.findSome?_cons, openFirst]
    cases hopening : cursor.here.opening? block with
    | none =>
      obtain ⟨same, hsame, hhere⟩ := openBlock_of_opening?_eq_none hopening
      obtain ⟨after, hafter, hplace⟩ := ih same
      rw [hhere] at hafter hplace
      rw [hsame]
      exact ⟨after, hafter, hplace⟩
    | some found =>
      obtain ⟨inside, hinside, hhere⟩ := openBlock_of_opening?_eq_some hopening
      rw [hinside]
      exact ⟨inside, rfl, hhere⟩

end Cursor

/-- What was found before is put in front. -/
def Survey.following (survey : Survey) (found : List Comment) : Survey :=
  { survey with comments := found ++ survey.comments }

@[simp] theorem Survey.following_following (survey : Survey) (found later : List Comment) :
    (survey.following later).following found = survey.following (found ++ later) := by
  simp [Survey.following]

section Survey

variable {blocks : List Block} {cursor : Cursor}

theorem survey_of_openFirst_eq_none {same : Cursor} (hne : cursor.here.rest ≠ [])
    (h : cursor.openFirst blocks = (none, same)) :
    survey blocks cursor = survey blocks (same.take 1).2 := by
  rw [survey, dif_neg hne]
  split
  · next hopen =>
    rw [h, Prod.mk.injEq] at hopen
    rw [hopen.2]
  · next hopen => simp [h] at hopen

theorem survey_of_openFirst_eq_some {block : OpenBlock} {inside : Cursor}
    (hne : cursor.here.rest ≠ []) (h : cursor.openFirst blocks = (some block, inside)) :
    survey blocks cursor =
      match block.ending? inside.rest with
      | some ending =>
        (survey blocks (inside.closeBlock block).2).following
          (if block.kind.isComment then some ⟨cursor.position, ending.lines⟩ else none).toList
      | none => ⟨[], some ⟨cursor.position, block.kind⟩⟩ := by
  rw [survey, dif_neg hne]
  split
  · next hopen => simp [h] at hopen
  · next hopen =>
    rw [h, Prod.mk.injEq, Option.some.injEq] at hopen
    obtain ⟨rfl, rfl⟩ := hopen
    cases hending : block.ending? inside.rest with
    | none => simp [Cursor.closeBlock, hending]
    | some ending =>
      have hstop : (inside.closeBlock block).1 = ⟨ending.lines, true⟩ := by
        simp [Cursor.closeBlock, hending]
      rw [hstop, if_pos rfl]
      dsimp only
      by_cases hcomment : block.kind.isComment = true
      · rw [if_pos hcomment, if_pos hcomment]
        rfl
      · rw [if_neg hcomment, if_neg hcomment]
        rfl

/-- **A survey takes turns.** Each is told by the place of the cursor alone, and so is the place
where the next begins. -/
theorem survey_eq_turn (blocks : List Block) (cursor : Cursor) :
    match cursor.here.turn blocks with
    | .finished => survey blocks cursor = ⟨[], none⟩
    | .moved comment next => ∃ other : Cursor, other.here = next
        ∧ survey blocks cursor = (survey blocks other).following comment.toList
    | .stopped block => survey blocks cursor = ⟨[], some block⟩ := by
  obtain ⟨after, hopen, hafter⟩ := cursor.openFirst_eq blocks
  by_cases hend : cursor.here.rest = []
  · rw [Place.turn, if_pos hend, survey, dif_pos hend]
  · rw [Place.turn, if_neg hend]
    cases hopening : blocks.findSome? cursor.here.opening? with
    | none =>
      rw [hopening, Option.map_none] at hopen
      rw [hopening, Option.map_none, Option.getD_none, Place.after_nil] at hafter
      refine ⟨(after.take 1).2, ?_, survey_of_openFirst_eq_none hend hopen⟩
      rw [Cursor.take, Cursor.here_read, Cursor.rest, hafter]
    | some found =>
      obtain ⟨block, opener⟩ := found
      rw [hopening, Option.map_some] at hopen
      rw [hopening, Option.map_some, Option.getD_some] at hafter
      have hsurvey := survey_of_openFirst_eq_some hend hopen
      rw [Cursor.rest, hafter] at hsurvey
      dsimp only
      cases hending : block.ending? (cursor.here.after opener).rest with
      | none =>
        rw [hending] at hsurvey
        exact hsurvey
      | some ending =>
        rw [hending] at hsurvey
        refine ⟨(after.closeBlock block).2, ?_, ?_⟩
        · rw [Cursor.closeBlock, Cursor.rest, hafter, hending]
        · exact hsurvey

/-- **A survey depends on the place of its cursor alone**, not on what was read before or on the
step that could be undone. -/
theorem survey_congr {cursor other : Cursor} (h : cursor.here = other.here) :
    survey blocks cursor = survey blocks other := by
  have hcursor := survey_eq_turn blocks cursor
  have hother := survey_eq_turn blocks other
  rw [← h] at hother
  cases hturn : cursor.here.turn blocks with
  | finished =>
    rw [hturn] at hcursor hother
    rw [hcursor, hother]
  | stopped block =>
    rw [hturn] at hcursor hother
    rw [hcursor, hother]
  | moved comment next =>
    rw [hturn] at hcursor hother
    obtain ⟨first, hfirst, hsurvey⟩ := hcursor
    obtain ⟨second, hsecond, hsurvey'⟩ := hother
    -- the next place has less to read, so the two surveys from there agree by induction
    have hless : first.here.rest.length < cursor.here.rest.length := by
      rw [hfirst]
      exact Place.length_rest_lt_of_turn hturn
    rw [hsurvey, hsurvey', survey_congr (hfirst.trans hsecond.symm)]
termination_by cursor.here.rest.length

theorem survey_of_finished (h : cursor.here.turn blocks = .finished) :
    survey blocks cursor = ⟨[], none⟩ := by
  have hsurvey := survey_eq_turn blocks cursor
  rw [h] at hsurvey
  exact hsurvey

theorem survey_of_stopped {block : Unterminated} (h : cursor.here.turn blocks = .stopped block) :
    survey blocks cursor = ⟨[], some block⟩ := by
  have hsurvey := survey_eq_turn blocks cursor
  rw [h] at hsurvey
  exact hsurvey

theorem survey_of_moved {comment : Option Comment} {next : Place} (cursor : Cursor)
    (h : cursor.here.turn blocks = .moved comment next) :
    survey blocks cursor = (survey blocks next.cursor).following comment.toList := by
  have hsurvey := survey_eq_turn blocks cursor
  rw [h] at hsurvey
  obtain ⟨other, hother, hsurvey⟩ := hsurvey
  rw [hsurvey, survey_congr (hother.trans next.here_cursor.symm)]

end Survey

/-! ## Runs -/

/-- The seek points that a scan comes to from `start`, and the comments it finds on the way. -/
inductive Reaches (blocks : List Block) (start : Place) : List Comment → Place → Prop where
  /-- The place it starts from. -/
  | start : Reaches blocks start [] start
  /-- The place that a turn leads to. -/
  | turn {found : List Comment} {place next : Place} {comment : Option Comment} :
    Reaches blocks start found place → place.turn blocks = .moved comment next →
      Reaches blocks start (found ++ comment.toList) next

namespace Reaches

variable {blocks : List Block} {start place : Place} {found : List Comment}

theorem head {next : Place} {comment : Option Comment}
    (hturn : start.turn blocks = .moved comment next) (h : Reaches blocks next found place) :
    Reaches blocks start (comment.toList ++ found) place := by
  induction h with
  | start =>
    rw [List.append_nil]
    exact (Reaches.start.turn hturn : Reaches blocks start ([] ++ comment.toList) next)
  | turn _ hmoved ih =>
    rw [← List.append_assoc]
    exact ih.turn hmoved

/-- A survey comes to the seek point where it ends, with all its comments found on the way. -/
theorem exists_end (blocks : List Block) (cursor : Cursor) :
    ∃ place, Reaches blocks cursor.here (survey blocks cursor).comments place
      ∧ match (survey blocks cursor).unterminated with
        | none => place.turn blocks = .finished
        | some block => place.turn blocks = .stopped block := by
  cases hturn : cursor.here.turn blocks with
  | finished =>
    rw [survey_of_finished hturn]
    exact ⟨cursor.here, .start, hturn⟩
  | stopped other =>
    rw [survey_of_stopped hturn]
    exact ⟨cursor.here, .start, hturn⟩
  | moved comment next =>
    rw [survey_of_moved cursor hturn]
    have hless : next.cursor.here.rest.length < cursor.here.rest.length :=
      Place.length_rest_lt_of_turn hturn
    obtain ⟨place, hreaches, hend⟩ := exists_end blocks next.cursor
    exact ⟨place, hreaches.head hturn, hend⟩
termination_by cursor.here.rest.length

/-- A survey that is stopped has come to the seek point where the open block begins. -/
theorem of_unterminated {cursor : Cursor} {block : Unterminated}
    (h : (survey blocks cursor).unterminated = some block) :
    ∃ place, Reaches blocks cursor.here (survey blocks cursor).comments place
      ∧ place.position = block.position := by
  obtain ⟨place, hreaches, hend⟩ := exists_end blocks cursor
  rw [h] at hend
  exact ⟨place, hreaches, (Place.position_of_turn_eq_stopped hend).symm⟩

/-- **What a survey finds is what it finds on the way to a seek point, and what a survey from there
finds.** -/
theorem survey_eq {cursor : Cursor} (h : Reaches blocks cursor.here found place) :
    survey blocks cursor = (survey blocks place.cursor).following found := by
  induction h with
  | start => exact survey_congr rfl
  | turn _ hmoved ih =>
    rw [ih, survey_of_moved (Place.cursor _) hmoved, Survey.following_following]

theorem exists_index (source : Source) (h : Reaches blocks source.cursor.here found place) :
    ∃ index ≤ source.text.length, place = source.placeAt index := by
  induction h with
  | start => exact ⟨0, Nat.zero_le _, rfl⟩
  | turn _ hmoved ih =>
    obtain ⟨index, -, rfl⟩ := ih
    obtain ⟨read, rest, hne, hrest, rfl⟩ := Place.turn_eq_moved hmoved
    rw [Source.rest_placeAt] at hrest
    refine ⟨index + read.length, ?_, Source.after_placeAt hrest⟩
    have hread := List.length_pos_iff.mpr hne
    have hlength := congrArg List.length hrest
    rw [List.length_drop, List.length_append] at hlength
    omega

end Reaches

end CommentBlocks
