import CommentBlocks.Proofs.BoundedCounters

/-!
# Reading a block exceeds no counter

The loops that read blocks to their ends, with checked counts. A loop exceeds no counter if none of
its passes does (`agrees_runLoop`), and for this a pass has to leave a state that is as good as the
one it began with. For most loops that means room for what is unread. Two know more.

* A fence that does not close is given back by its position, so that the position has to be one of
  the source.
* Comments that nest have a depth, which is one after the opener. An inner opener adds one to it and
  takes a byte at least, so that the depth never exceeds the byte offset; and the loop ends when an
  end token brings the depth to zero, so that it never takes one from zero.
-/

namespace CommentBlocks

/-! ## Loops -/

section Loops

variable {σ ρ : Type} {checked : σ → Option (Pass σ ρ)} {plain : σ → Id (Pass σ ρ)} {state : σ}

/-- What a pass leaves behind: a state to go on from, or a result. -/
def Pass.Keeps (Inv : σ → Prop) (Result : ρ → Prop) : Pass σ ρ → Prop
  | .again next => Inv next
  | .done result => Result result
  | .failed => True

/-- **A loop exceeds no counter if none of its passes does.** -/
theorem agrees_runLoop (Inv : σ → Prop) {Result : ρ → Prop}
    (hpass : ∀ state, Inv state → Agrees (checked state) (plain state) (Pass.Keeps Inv Result))
    (fuel : Nat) (h : Inv state) :
    Agrees (runLoop checked fuel state) (runLoop plain fuel state)
      (∀ result ∈ ·, Result result) := by
  induction fuel generalizing state with
  | zero => exact .pure fun _ hnone ↦ absurd hnone (Option.not_mem_none _)
  | succ fuel ih =>
    rw [runLoop, runLoop]
    refine (hpass state h).bind ?_
    rintro (next | result | -) - hkeeps
    · exact ih hkeeps
    · refine .pure ?_
      rintro _ ⟨⟩
      exact hkeeps
    · exact .pure fun _ hnone ↦ absurd hnone (Option.not_mem_none _)

theorem agrees_runLoop_true (Inv : σ → Prop)
    (hpass : ∀ state, Inv state →
      Agrees (checked state) (plain state) (Pass.Keeps Inv fun _ ↦ True))
    (fuel : Nat) (h : Inv state) :
    Agrees (runLoop checked fuel state) (runLoop plain fuel state) fun _ ↦ True :=
  (agrees_runLoop Inv hpass fuel h).mono fun _ _ ↦ trivial

end Loops

/-! ## Strings -/

theorem Cursor.matchToken_cases {cursor after : Cursor} {token : Text} {found : Bool}
    (h : cursor.matchToken token = (found, after)) :
    found = false ∧ after = cursor
      ∨ found = true ∧ token ≠ [] ∧ after = cursor.read token ∧ cursor.Passes after token := by
  rcases hafter : Text.afterToken? token cursor.rest with - | rest
  · rw [matchToken_of_none hafter] at h
    exact Or.inl ⟨(Prod.mk.inj h).1.symm, (Prod.mk.inj h).2.symm⟩
  · rw [matchToken_of_some hafter] at h
    obtain ⟨hne, hrest⟩ := Text.afterToken?_eq_some_iff.mp hafter
    obtain ⟨rfl, rfl⟩ := Prod.mk.inj h
    exact Or.inr ⟨rfl, hne, rfl, rfl, rfl, rfl, rest, hrest⟩

namespace Cursor.HasRoom

variable {cursor : Cursor}

theorem agrees_stringPass (h : cursor.HasRoom) (closer : Text) (escape : Option Text) :
    Agrees (stringPass closer escape cursor) (stringPass closer escape cursor)
      (Pass.Keeps Cursor.HasRoom fun _ ↦ True) := by
  have hescape : Agrees (escape.elim (pure (false, cursor)) cursor.matchTokenM)
      (escape.elim (pure (false, cursor)) cursor.matchTokenM) (·.2.HasRoom) := by
    rcases escape with - | token
    · exact .pure h
    · exact h.agrees_matchTokenM token
  rw [stringPass, stringPass]
  split
  · exact h.agrees_giveUp.bind fun _ _ _ ↦ .pure trivial
  · refine hescape.bind ?_
    rintro ⟨_ | _, tried⟩ - htried
    · refine (htried.agrees_matchTokenM closer).bind ?_
      rintro ⟨_ | _, same⟩ - hsame
      · exact (hsame.agrees_take 1).bind fun _ _ hnext ↦ .pure hnext
      · exact .pure trivial
    · exact (htried.agrees_take 1).bind fun _ _ hnext ↦ .pure hnext

theorem agrees_doubledPass (h : cursor.HasRoom) (quote : Text) :
    Agrees (doubledPass quote cursor) (doubledPass quote cursor)
      (Pass.Keeps Cursor.HasRoom fun _ ↦ True) := by
  rw [doubledPass, doubledPass]
  split
  · exact h.agrees_giveUp.bind fun _ _ _ ↦ .pure trivial
  · refine (h.agrees_matchTokenM quote).bind ?_
    rintro ⟨_ | _, inside⟩ - hinside
    · exact (hinside.agrees_take 1).bind fun _ _ hnext ↦ .pure hnext
    · refine (hinside.agrees_matchTokenM quote).bind ?_
      rintro ⟨_ | _, after⟩ - hafter
      · exact .pure trivial
      · exact .pure hafter

/-- A mark that does not close is given back by its position, which has to be one of the source. -/
theorem agrees_fencePass {front : Text} (h : cursor.HasRoom) (hread : cursor.HasRead front)
    (mark : Text) :
    Agrees (fencePass mark cursor) (fencePass mark cursor)
      (Pass.Keeps (fun next ↦ next.HasRoom ∧ ∃ front, next.HasRead front) fun _ ↦ True) := by
  -- wherever the source goes on, a character of it is read
  have hgoes {same : Cursor} (hroom : same.HasRoom) (hsame : same.HasRead front)
      (hne : same.rest ≠ []) :
      Agrees (do return (.again (← same.reading (·.take 1)).2 : Pass Cursor (BlockEnd × Cursor)))
        (do return .again (← same.reading (·.take 1)).2)
        (Pass.Keeps (fun next ↦ next.HasRoom ∧ ∃ front, next.HasRead front) fun _ ↦ True) := by
    obtain ⟨c, rest, hrest⟩ := List.exists_cons_of_ne_nil hne
    refine (hroom.agrees_take 1).bind ?_
    intro next hnext hafter
    rw [run_reading_take] at hnext
    obtain rfl := hnext
    exact .pure ⟨hafter, _, (passes_take_one hrest).hasRead hsame⟩
  rw [fencePass, fencePass]
  split
  · exact h.agrees_giveUp.bind fun _ _ _ ↦ .pure trivial
  · next hend =>
    have hne : cursor.rest ≠ [] := mt atEnd_of_nil hend
    refine (h.agrees_matchTokenM mark).bind ?_
    rintro ⟨found, after⟩ hmatch hafter
    rw [run_matchTokenM] at hmatch
    rcases matchToken_cases hmatch with ⟨rfl, rfl⟩ | ⟨rfl, -, rfl, -⟩
    · exact hgoes h hread hne
    · dsimp only
      split
      · exact hafter.agrees_takeLine.bind fun _ _ _ ↦ .pure trivial
      · rw [hread.moveTo_position]
        exact hgoes (h.of_here_eq rfl) ⟨hread.text, hread.offset⟩ hne

/-! ## Line comments -/

theorem agrees_linePass (h : cursor.HasRoom) (opener : Text) (lines : List Text) :
    Agrees (linePass opener (cursor, lines)) (linePass opener (cursor, lines))
      (Pass.Keeps (·.1.HasRoom) fun _ ↦ True) := by
  rw [linePass, linePass]
  refine h.agrees_takeLine.bind fun line _ hline ↦ ?_
  dsimp only
  split
  · exact .pure trivial
  · refine (hline.agrees_skipSpaces none).bind fun spaces _ hspaces ↦
      (hspaces.agrees_matchTokenM opener).bind ?_
    rintro ⟨_ | _, inside⟩ - hinside
    · exact .pure trivial
    · exact .pure hinside

end Cursor.HasRoom

/-! ## Comments with an end token -/

/-- There is room for what is unread, and no more comments are open than bytes were read. -/
structure CommentState.HasRoom (state : CommentState) : Prop where
  /-- There is room for what is unread. -/
  cursor : state.cursor.HasRoom
  /-- The comment itself is open. -/
  depth_pos : 0 < state.depth
  /-- Every opener has taken a byte. -/
  depth_le : state.depth ≤ state.cursor.position.byteOffset

theorem CommentState.HasRoom.agrees_commentPass {state : CommentState} (h : state.HasRoom)
    (inner closer : Text) (margin : Option Text) :
    Agrees (commentPass inner closer margin state) (commentPass inner closer margin state)
      (Pass.Keeps CommentState.HasRoom fun _ ↦ True) := by
  have hpos := h.depth_pos
  have hdepth := h.depth_le
  rw [commentPass, commentPass]
  split
  · exact h.cursor.agrees_giveUp.bind fun _ _ _ ↦ .pure trivial
  next hend =>
  refine (h.cursor.agrees_matchTokenM closer).bind ?_
  rintro ⟨found, after⟩ hclose hafter
  rw [Cursor.run_matchTokenM] at hclose
  rcases Cursor.matchToken_cases hclose with ⟨rfl, rfl⟩ | ⟨rfl, hne, -, hpasses⟩
  · refine (h.cursor.agrees_matchTokenM inner).bind ?_
    rintro ⟨found, inside⟩ hopen hinside
    rw [Cursor.run_matchTokenM] at hopen
    rcases Cursor.matchToken_cases hopen with ⟨rfl, rfl⟩ | ⟨rfl, hne, -, hpasses⟩
    · obtain ⟨c, rest, hrest⟩ := List.exists_cons_of_ne_nil (mt Cursor.atEnd_of_nil hend)
      have hforward := (Cursor.passes_take_one hrest).byteOffset_lt (List.cons_ne_nil c [])
      refine (h.cursor.agrees_take 1).bind ?_
      intro next hnext hroom
      rw [Cursor.run_reading_take] at hnext
      obtain rfl := hnext
      split
      · split
        · exact .pure ⟨hroom, hpos, by dsimp only; omega⟩
        · exact .pure trivial
      · exact .pure ⟨hroom, hpos, by dsimp only; omega⟩
    · -- one comment more is open, and at least one byte more was read
      have hforward := hpasses.byteOffset_lt hne
      have hfits : inside.position.byteOffset + inside.rest.byteLength ≤ Source.maxOffset :=
        hinside.within
      exact .count_bind (by omega) (.pure ⟨hinside, Nat.succ_pos _, by dsimp only; omega⟩)
  · have hforward := hpasses.byteOffset_lt hne
    refine (Agrees.pred hpos).bind ?_
    rintro _ - rfl
    split
    · split
      · exact .pure trivial
      · exact .pure trivial
      · exact .pure trivial
    · exact .pure ⟨hafter, by dsimp only; omega, by dsimp only; omega⟩

/-! ## Blocks closed by a whole line -/

namespace Cursor.HasRoom

variable {cursor : Cursor}

theorem agrees_endsLine (h : cursor.HasRoom) :
    Agrees (endsLine cursor) (endsLine cursor) (·.2.HasRoom) := by
  rw [endsLine, endsLine]
  split
  · exact .pure h
  · exact h.agrees_eatLineBreak

theorem agrees_anchoredCloses (h : cursor.HasRoom) (closer : Text) :
    Agrees (anchoredCloses closer cursor) (anchoredCloses closer cursor) (·.2.HasRoom) := by
  refine (h.agrees_matchTokenM closer).bind ?_
  rintro ⟨_ | _, after⟩ - hafter
  · exact .pure hafter
  · exact hafter.agrees_endsLine

theorem agrees_heredocCloses (h : cursor.HasRoom) (terminator : Text) :
    Agrees (heredocCloses terminator cursor) (heredocCloses terminator cursor)
      (·.2.HasRoom) := by
  refine (h.agrees_matchTokenM terminator).bind ?_
  rintro ⟨_ | _, after⟩ - hafter
  · exact .pure hafter
  · exact (hafter.agrees_matchTokenM [';']).bind fun _ _ hmore ↦ hmore.agrees_endsLine

theorem agrees_linesPass {checked : Cursor → Option (Bool × Cursor)}
    {plain : Cursor → Id (Bool × Cursor)}
    (hcloses : Agrees (checked cursor) (plain cursor) (·.2.HasRoom)) (h : cursor.HasRoom)
    (lines : List Text) :
    Agrees (linesPass checked (cursor, lines)) (linesPass plain (cursor, lines))
      (Pass.Keeps (·.1.HasRoom) fun _ ↦ True) := by
  rw [linesPass, linesPass]
  split
  · exact h.agrees_giveUp.bind fun _ _ _ ↦ .pure trivial
  · refine hcloses.bind ?_
    rintro ⟨_ | _, tried⟩ - -
    · have hreturned : (tried.returnTo cursor.here).HasRoom := h.of_here_eq rfl
      exact hreturned.agrees_takeLine.bind fun _ _ hnext ↦ .pure hnext
    · exact .pure trivial

end Cursor.HasRoom

/-! ## All kinds -/

namespace Cursor

variable {cursor : Cursor} {front : Text}

/-- **Reading a block exceeds no counter.** Its opener has been read, which makes up for the one
comment that is open. -/
theorem HasRoom.agrees_endBlock (h : cursor.HasRoom) (hread : cursor.HasRead front)
    (hopener : 0 < cursor.position.byteOffset) (fuel : Nat) (opened : OpenBlock) :
    Agrees (cursor.endBlock fuel opened.block opened.state)
      (cursor.endBlock fuel opened.block opened.state) fun _ ↦ True := by
  have hcomment (inner closer : Text) (margin : Option Text) :
      Agrees (runLoop (commentPass inner closer margin) fuel ⟨cursor, [], cursor.position, 1⟩)
        (runLoop (commentPass inner closer margin) fuel ⟨cursor, [], cursor.position, 1⟩)
        fun _ ↦ True :=
    agrees_runLoop_true CommentState.HasRoom (fun _ hstate ↦ hstate.agrees_commentPass _ _ _) fuel
      ⟨h, Nat.one_pos, hopener⟩
  have hdoubled (quote : Text) : Agrees (runLoop (doubledPass quote) fuel cursor)
      (runLoop (doubledPass quote) fuel cursor) fun _ ↦ True :=
    agrees_runLoop_true HasRoom (fun _ hstate ↦ hstate.agrees_doubledPass quote) fuel h
  have hlines {checked : Cursor → Option (Bool × Cursor)} {plain : Cursor → Id (Bool × Cursor)}
      (hcloses : ∀ next : Cursor, next.HasRoom →
        Agrees (checked next) (plain next) (·.2.HasRoom)) :
      Agrees (runLoop (linesPass checked) fuel (cursor, []))
        (runLoop (linesPass plain) fuel (cursor, [])) fun _ ↦ True :=
    agrees_runLoop_true (·.1.HasRoom)
      (fun state hstate ↦ agrees_linesPass (hcloses _ hstate) hstate state.2) fuel h
  rcases opened with form | label
  · rcases form with ⟨-, closer, escape⟩ | opener | ⟨-, closer, margin⟩ | quote | ⟨-, closer⟩
      | ⟨opener, closer, margin⟩ | mark | ⟨-, quote⟩
    · exact agrees_runLoop_true HasRoom (fun _ hstate ↦ hstate.agrees_stringPass closer escape)
        fuel h
    · exact agrees_runLoop_true (·.1.HasRoom)
        (fun state hstate ↦ agrees_linePass hstate opener state.2) fuel h
    · exact hcomment [] closer margin
    · exact hdoubled quote
    · exact hlines fun _ hnext ↦ hnext.agrees_anchoredCloses closer
    · exact hcomment opener closer margin
    · exact agrees_runLoop_true (fun next ↦ next.HasRoom ∧ ∃ front, next.HasRead front)
        (fun _ hstate ↦ hstate.1.agrees_fencePass hstate.2.choose_spec mark) fuel ⟨h, front, hread⟩
    · exact hdoubled quote
  · exact hlines fun _ hnext ↦ hnext.agrees_heredocCloses label.terminator

end Cursor

end CommentBlocks
