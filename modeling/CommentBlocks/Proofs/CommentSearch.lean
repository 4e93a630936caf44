import CommentBlocks.Proofs.NestedComments

/-!
# Two ways to the end of a comment

A comment that does not nest ends with its first end token, and there are two ways to get there.
The reader of comments goes from character to character, tries the end token at each of them, and
cuts out the lines that it completes on the way. `Cursor.takeUntil` searches the UTF-8 bytes of the
unread text and then cuts the text once, at the byte offset that was found.

Both are compared with a third way, the search for a token in characters, `Text.before?`. The reader
of comments follows it step by step (`commentEnding?_eq_before?`), with any end token: line feeds in
it cut no lines, since it is no part of the content, and an empty one is never found. The search in
bytes has the same answer in bytes (`Cursor.findBytes?_encode`). So the offset it finds is that of a
character, and no cut falls inside one.
-/

namespace CommentBlocks

variable {token : Text}

/-! ## The search in characters -/

theorem finds_before? (htoken : token ≠ []) (text : Text) :
    Finds (fun n ↦ token <+: text.drop n) (fun n front ↦ front = text.take n)
      (Text.before? token text) := by
  induction text with
  | nil =>
    intro n h
    rw [List.drop_nil] at h
    exact htoken (List.prefix_nil.mp h)
  | cons c text ih =>
    rw [Text.before?]
    by_cases hstart : Text.startsWith token (c :: text) = true
    · obtain ⟨-, rest, hrest⟩ := Text.startsWith_iff.mp hstart
      rw [if_pos hstart]
      exact .first ⟨rest, hrest.symm⟩ rfl
    · rw [if_neg hstart]
      refine .next ih ?_ ?_
      · rintro ⟨rest, hrest⟩
        exact hstart (Text.startsWith_iff.mpr ⟨htoken, rest, hrest.symm⟩)
      · rintro n _ rfl
        rfl

/-! ## The reader of comments -/

theorem pieceLines_of_char (c : Char) (pieces : List Text) :
    pieceLines none (if c = '\n' then [c] :: pieces else prependPiece [c] pieces)
      = if c = '\n' then [c] :: pieceLines none pieces
        else prependPiece [c] (pieceLines none pieces) := by
  split
  · exact pieceLines_cons (List.cons_ne_nil _ _) none pieces
  · exact pieceLines_prependPiece (List.cons_ne_nil _ _) pieces

theorem map_commentPieces_eq_before? (closer text : Text) :
    (commentPieces [] closer 0 text).map (fun pieces ↦ (pieceLines none pieces, pieces.flatten))
      = (Text.before? closer text).map fun content ↦ (content.lines, content) := by
  induction text with
  | nil =>
    rw [commentPieces]
    rfl
  | cons c text ih =>
    rw [Text.before?]
    by_cases hstart : Text.startsWith closer (c :: text) = true
    · obtain ⟨hne, rest, hrest⟩ := Text.startsWith_iff.mp hstart
      have hclose := Text.afterToken?_eq_some_iff.mpr ⟨hne, hrest⟩
      rw [if_pos hstart, commentPieces_of_closer hclose]
      rfl
    · have hclose : Text.afterToken? closer (c :: text) = none := by
        rwa [Text.startsWith, Option.not_isSome_iff_eq_none] at hstart
      rw [if_neg hstart, commentPieces_of_plain hclose rfl]
      rcases hbefore : Text.before? closer text with _ | content
      · rw [hbefore, Option.map_none, Option.map_eq_none_iff] at ih
        rw [ih]
        rfl
      · rw [hbefore] at ih
        obtain ⟨pieces, hpieces, heq⟩ := Option.map_eq_some_iff.mp ih
        obtain ⟨hlines, hcontent⟩ := Prod.mk.inj heq
        have hflatten : (if c = '\n' then [c] :: pieces else prependPiece [c] pieces).flatten
            = c :: content := by
          rw [← hcontent]
          split
          · rfl
          · exact flatten_prependPiece [c] pieces
        rw [hpieces, Option.map_some, Option.map_some, Option.map_some, Option.map_some,
          pieceLines_of_char, hlines, hflatten]
        rfl

/-- **A comment that does not nest is read by searching for its end token.** -/
theorem commentEnding?_eq_before? (closer : Text) (margin : Option Text) (text : Text) :
    commentEnding? [] closer margin text
      = (Text.before? closer text).map fun content ↦
        ⟨content.lines.map (Text.dropMargin margin), content, some closer⟩ := by
  have hending : commentEnding? [] closer margin text
      = (commentPieces [] closer 0 text).map fun pieces ↦
        ⟨(pieceLines none pieces).map (Text.dropMargin margin), pieces.flatten, some closer⟩ := by
    simp only [← pieceLines_eq_map]
    rfl
  have hpieces := congrArg
    (Option.map fun read ↦ (⟨read.1.map (Text.dropMargin margin), read.2, some closer⟩ : Ending))
    (map_commentPieces_eq_before? closer text)
  rw [Option.map_map, Option.map_map] at hpieces
  exact hending.trans hpieces

/-! ## The search in bytes -/

/-- Both offsets at which a search in bytes may cut the text are those of characters: that of the
first place where the token stands, and that of the end of the token there. -/
theorem finds_findBytes? (htoken : token ≠ []) (text : Text) :
    Finds (fun n ↦ token <+: text.drop n)
      (fun n offset ↦ Text.splitAtByte? offset text = some (text.take n, text.drop n)
        ∧ Text.splitAtByte? (offset + (Utf8.encode token).length) text
          = some (text.take (n + token.length), text.drop (n + token.length)))
      (Cursor.findBytes? (Utf8.encode token) (Utf8.encode text)) := by
  have hfinds := finds_before? htoken text
  rw [Cursor.findBytes?_encode htoken]
  rcases hbefore : Text.before? token text with _ | front
  · rw [hbefore] at hfinds
    exact hfinds
  · rw [hbefore] at hfinds
    obtain ⟨n, hleast, rfl⟩ := hfinds
    refine ⟨n, hleast, ?_, ?_⟩
    · exact Text.splitAtByte?_eq_some_iff.mpr ⟨(List.take_append_drop _ _).symm, rfl⟩
    · obtain ⟨rest, hrest⟩ : token <+: text.drop n := hleast.1
      refine Text.splitAtByte?_eq_some_iff.mpr ⟨(List.take_append_drop _ _).symm, ?_⟩
      rw [List.take_add, ← hrest, List.take_left, Text.byteLength_append, Utf8.length_encode]

/-- **Reading a comment and searching for its end token come to the same place.** Let the comment
have any end token and margin, and let `cursor` be any cursor. The reader goes from character to
character and cuts out lines by positions it has kept; on a cursor of a source its loop ends, and
what it comes to is `Cursor.closeBlock`. The comment closes exactly if the search in bytes finds the
end token; both then leave the cursor at the same place, and the lines of the comment are those of
the text before the end token, each without its margin. The search itself finds the first place
where the end token stands, and if there is none, nothing. The offset it finds and the offset of the
end of the token are those of characters, so no cut falls inside one. -/
theorem comment_ends_where_search_finds (opener closer : Text) (margin : Option Text)
    (cursor : Cursor) :
    let opened : OpenBlock := .delimited (.comment opener closer margin)
    (∀ front, cursor.HasRead front →
        Id.run (cursor.endBlock (cursor.rest.length + 1) opened.block opened.state)
          = some (cursor.closeBlock opened))
      ∧ ((cursor.closeBlock opened).1.wellTerminated = true
        ↔ (cursor.takeUntil closer true).1.isSome = true)
      ∧ ((cursor.takeUntil closer true).1.isSome = true →
        (cursor.closeBlock opened).2.here = (cursor.takeUntil closer true).2.here
          ∧ ∃ content, (cursor.takeUntil closer false).1 = some content
            ∧ (cursor.closeBlock opened).1.lines = content.lines.map (Text.dropMargin margin))
      ∧ (closer ≠ [] →
        Finds (fun n ↦ closer <+: cursor.rest.drop n)
          (fun n offset ↦
            Text.splitAtByte? offset cursor.rest = some (cursor.rest.take n, cursor.rest.drop n)
              ∧ Text.splitAtByte? (offset + (Utf8.encode closer).length) cursor.rest
                = some (cursor.rest.take (n + closer.length),
                  cursor.rest.drop (n + closer.length)))
          (Cursor.findBytes? (Utf8.encode closer) (Utf8.encode cursor.rest))) := by
  intro opened
  have hending : opened.ending? cursor.rest
      = (Text.before? closer cursor.rest).map fun content ↦
        ⟨content.lines.map (Text.dropMargin margin), content, some closer⟩ :=
    commentEnding?_eq_before? closer margin cursor.rest
  refine ⟨fun front hread ↦ Cursor.endBlock_eq_closeBlock hread opened, ?_⟩
  rw [← and_assoc]
  refine ⟨?_, fun hcloser ↦ finds_findBytes? hcloser cursor.rest⟩
  rw [Cursor.takeUntil_eq, Cursor.takeUntil_eq, Cursor.closeBlock, hending]
  rcases Text.before? closer cursor.rest with _ | content
  · exact ⟨iff_of_false Bool.false_ne_true Bool.false_ne_true,
      fun hfound ↦ absurd hfound Bool.false_ne_true⟩
  · exact ⟨iff_of_true rfl rfl, fun _ ↦ ⟨rfl, content, rfl, rfl⟩⟩

/-- An end token with a line feed, and characters of two and three bytes before it: the line feed
of the end token ends no line, and the offset found is that of the eighth character. -/
theorem comment_ends_where_search_finds_feed_in_closer :
    let cursor : Cursor := Place.cursor ⟨.zero, "é\n * ∀x\n*/ y".toList⟩
    let closer : Text := "\n*/".toList
    let opened : OpenBlock := .delimited (.comment "/*".toList closer (some ['*']))
    Id.run (cursor.endBlock (cursor.rest.length + 1) opened.block opened.state)
        = some (cursor.closeBlock opened)
      ∧ (cursor.closeBlock opened).1.wellTerminated = true
      ∧ (cursor.closeBlock opened).1.lines = ["é\n".toList, "∀x".toList]
      ∧ (cursor.closeBlock opened).2.here = (cursor.takeUntil closer true).2.here
      ∧ ∃ n, IsLeast {i | closer <+: cursor.rest.drop i} n
        ∧ Text.splitAtByte? 10 cursor.rest = some (cursor.rest.take n, cursor.rest.drop n) := by
  intro cursor closer opened
  have hread : cursor.HasRead [] := ⟨rfl, rfl⟩
  have hcloser : closer ≠ [] := by decide
  have hsearch : (cursor.takeUntil closer true).1.isSome = true := by decide +kernel
  have hoffset : Cursor.findBytes? (Utf8.encode closer) (Utf8.encode cursor.rest) = some 10 := by
    decide +kernel
  have hbefore : (cursor.takeUntil closer false).1 = some "é\n * ∀x".toList := by decide +kernel
  obtain ⟨hloop, hcloses, hplace, hfinds⟩ :=
    comment_ends_where_search_finds "/*".toList closer (some ['*']) cursor
  obtain ⟨hhere, content, hcontent, hlines⟩ := hplace hsearch
  obtain rfl : "é\n * ∀x".toList = content := Option.some_inj.mp (hbefore.symm.trans hcontent)
  have hfinds := hfinds hcloser
  rw [hoffset] at hfinds
  obtain ⟨n, hleast, hcut, -⟩ := hfinds
  exact ⟨hloop [] hread, hcloses.mpr hsearch, hlines, hhere, n, hleast, hcut⟩

end CommentBlocks
