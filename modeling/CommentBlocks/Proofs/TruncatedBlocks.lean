import CommentBlocks.Proofs.BlockText
import CommentBlocks.Proofs.TruncatedText

/-!
# Blocks in a text that is cut short

A block that closes reads a part of the text behind its opener, but the rule that finds its end may
look further: a doubled quote looks for a second one, a run of line comments for another line, and
some rules take the end of the text for the end of a line. So it is not plain that cutting the text
off somewhere behind the end of a block leaves that block as it was. It does
(`OpenBlock.ending?_of_isPrefix`): the same text is read and the same lines are found.

Each rule is treated in the same way. Its recursion is restated as one equation for each thing that
may come next, and the proof follows the recursion on the whole text while cutting from what remains
(`kept`) what the rule reads.
-/

namespace CommentBlocks

/-! ## Strings -/

section Strings

variable {closer text kept body : Text} {escape : Option Text}

theorem stringBody?_of_escape {escaped : Char} {more : Text}
    (h : afterEscape? escape text = some (escaped :: more)) :
    stringBody? closer escape text
      = (stringBody? closer escape more).map fun body ↦ escape.getD [] ++ escaped :: body := by
  cases text with
  | nil =>
    have hlength := length_lt_of_afterEscape? h
    exact absurd hlength (Nat.not_lt_zero _)
  | cons c text =>
    rw [stringBody?]
    split
    · next hnone => simp [h] at hnone
    · next hsome =>
      rw [h, Option.some.injEq, List.cons.injEq] at hsome
      rw [hsome.1, hsome.2]
    · next hnone => simp [h] at hnone

theorem stringBody?_of_no_escape {c : Char} (h : afterEscape? escape (c :: text) = none) :
    stringBody? closer escape (c :: text)
      = if Text.startsWith closer (c :: text) then some []
        else (stringBody? closer escape text).map (c :: ·) := by
  rw [stringBody?]
  split
  · next hsome => simp [h] at hsome
  · next hsome => simp [h] at hsome
  · rfl

theorem afterEscape?_eq_none_of_isPrefix (hkept : kept <+: text)
    (h : afterEscape? escape text = none) : afterEscape? escape kept = none := by
  cases escape with
  | none => rfl
  | some token => exact Text.afterToken?_eq_none_of_isPrefix hkept h

theorem stringBody?_of_isPrefix (h : stringBody? closer escape text = some body)
    (hkept : kept <+: text) (hread : body ++ closer <+: kept) :
    stringBody? closer escape kept = some body := by
  fun_induction stringBody? closer escape text generalizing body kept with
  | case1 => simp at h
  | case2 => simp at h
  | case3 c rest escaped more hescape _ ih =>
    obtain ⟨later, hlater, rfl⟩ := Option.map_eq_some_iff.mp h
    have htext : c :: rest = (escape.getD [] ++ [escaped]) ++ more := by
      rw [eq_append_of_afterEscape? hescape, List.append_assoc, List.singleton_append]
    have hfront : (escape.getD [] ++ [escaped]) ++ (later ++ closer) <+: kept := by
      simpa using hread
    obtain ⟨left, rfl, hleft, hlaterRead⟩ := Text.exists_append_of_isPrefix _ (htext ▸ hkept) hfront
    have hstill : afterEscape? escape (escape.getD [] ++ [escaped] ++ left)
        = some (escaped :: left) := by
      obtain ⟨token, rfl, htoken⟩ := Option.bind_eq_some_iff.mp hescape
      rw [Option.getD_some, List.append_assoc, List.singleton_append]
      exact Text.afterToken?_append (Text.afterToken?_eq_some_iff.mp htoken).1 _
    rw [stringBody?_of_escape hstill, ih hlater hleft hlaterRead, Option.map_some]
  | case4 c rest hescape hclose =>
    rw [Option.some.injEq] at h
    rw [← h, List.nil_append] at hread
    have hstill := Text.startsWith_of_isPrefix hclose hread
    cases kept with
    | nil =>
      obtain ⟨hne, more, hmore⟩ := Text.startsWith_iff.mp hstill
      exact absurd (List.append_eq_nil_iff.mp hmore.symm).1 hne
    | cons d kept =>
      rw [stringBody?_of_no_escape (afterEscape?_eq_none_of_isPrefix hkept hescape),
        if_pos hstill, h]
  | case5 c rest hescape hclose ih =>
    obtain ⟨later, hlater, rfl⟩ := Option.map_eq_some_iff.mp h
    obtain ⟨left, rfl, hleft, hlaterRead⟩ := Text.exists_append_of_isPrefix [c] hkept hread
    rw [List.singleton_append] at hkept ⊢
    rw [stringBody?_of_no_escape (afterEscape?_eq_none_of_isPrefix hkept hescape),
      if_neg (Text.startsWith_eq_false_of_isPrefix hkept hclose), ih hlater hleft hlaterRead,
      Option.map_some]

end Strings

section DoubledQuotes

variable {quote text kept body : Text}

theorem doubledBody?_of_no_quote {c : Char} (h : Text.afterToken? quote (c :: text) = none) :
    doubledBody? quote (c :: text) = (doubledBody? quote text).map (c :: ·) := by
  rw [doubledBody?]
  split
  · rfl
  · next hsome => simp [h] at hsome

theorem doubledBody?_of_quote {inside : Text} (h : Text.afterToken? quote text = some inside) :
    doubledBody? quote text =
      match Text.afterToken? quote inside with
      | none => some []
      | some more => (doubledBody? quote more).map fun body ↦ quote ++ (quote ++ body) := by
  cases text with
  | nil => exact absurd (Text.length_lt_of_afterToken? h) (Nat.not_lt_zero _)
  | cons c text =>
    rw [doubledBody?]
    split
    · next hnone => simp [h] at hnone
    · next hsome =>
      rw [h, Option.some.injEq] at hsome
      subst hsome
      split
      · next hsecond => rw [hsecond]
      · next hsecond => simp only [hsecond]

theorem doubledBody?_of_isPrefix (h : doubledBody? quote text = some body) (hkept : kept <+: text)
    (hread : body ++ quote <+: kept) : doubledBody? quote kept = some body := by
  fun_induction doubledBody? quote text generalizing body kept with
  | case1 => simp at h
  | case2 c rest hquote ih =>
    obtain ⟨later, hlater, rfl⟩ := Option.map_eq_some_iff.mp h
    obtain ⟨left, rfl, hleft, hlaterRead⟩ := Text.exists_append_of_isPrefix [c] hkept hread
    rw [List.singleton_append] at hkept ⊢
    rw [doubledBody?_of_no_quote (Text.afterToken?_eq_none_of_isPrefix hkept hquote),
      ih hlater hleft hlaterRead, Option.map_some]
  | case3 c rest inside hquote hsecond =>
    obtain ⟨hne, hinside⟩ := Text.afterToken?_eq_some_iff.mp hquote
    rw [Option.some.injEq] at h
    rw [← h, List.nil_append, ← List.append_nil quote] at hread
    obtain ⟨left, rfl, hleft, -⟩ := Text.exists_append_of_isPrefix quote (hinside ▸ hkept) hread
    -- the text may be cut inside a second quote, but there was none
    rw [doubledBody?_of_quote (Text.afterToken?_append hne left),
      Text.afterToken?_eq_none_of_isPrefix hleft hsecond]
    exact congrArg some h
  | case4 c rest inside hquote more hsecond _ ih =>
    obtain ⟨later, hlater, rfl⟩ := Option.map_eq_some_iff.mp h
    obtain ⟨hne, hinside⟩ := Text.afterToken?_eq_some_iff.mp hquote
    have hmore := (Text.afterToken?_eq_some_iff.mp hsecond).2
    rw [hinside, hmore] at hkept
    rw [List.append_assoc, List.append_assoc] at hread
    obtain ⟨left, rfl, hleft, hread⟩ := Text.exists_append_of_isPrefix quote hkept hread
    obtain ⟨left, rfl, hleft, hlaterRead⟩ := Text.exists_append_of_isPrefix quote hleft hread
    rw [doubledBody?_of_quote (Text.afterToken?_append hne _), Text.afterToken?_append hne left]
    dsimp only
    rw [ih hlater hleft hlaterRead, Option.map_some]

end DoubledQuotes

/-! ## Fences -/

section Fences

variable {mark text kept : Text} {ending : Ending}

theorem read_fenceEnding? (h : fenceEnding? mark text = some ending) :
    ending.read = text ∨ ∃ front, ending.read = front ++ ['\n'] ∧ mark.length ≤ front.length := by
  induction text generalizing ending with
  | nil => simp [fenceEnding?] at h
  | cons c text ih =>
    rcases fenceEnding?_cons_eq_some h with ⟨after, hafter, -, rfl⟩ | ⟨-, later, hlater, rfl⟩
    · rw [Ending.read, Option.getD_some]
      by_cases hfeed : '\n' ∈ after
      · obtain ⟨line, hline⟩ := Text.exists_splitLine_eq hfeed
        refine Or.inr ⟨mark ++ line, ?_, ?_⟩
        · rw [hline, List.append_assoc]
        · rw [List.length_append]
          exact Nat.le_add_right _ _
      · rw [Text.splitLine_of_not_mem hfeed]
        exact Or.inl (Text.afterToken?_eq_some_iff.mp hafter).2.symm
    · rcases ih hlater with hall | ⟨front, hfront, hlength⟩
      · exact Or.inl (congrArg (c :: ·) hall)
      · refine Or.inr ⟨c :: front, congrArg (c :: ·) hfront, ?_⟩
        exact Nat.le_succ_of_le hlength

/-- The line behind a mark that comes before the end of a fence is not cut. -/
theorem splitLine_of_read_fenceEnding? {c : Char} {after cut : Text}
    (h : fenceEnding? mark (text ++ cut) = some ending) (hread : ending.read <+: text)
    (hafter : c :: text = mark ++ after) :
    (Text.splitLine (after ++ cut)).1 = (Text.splitLine after).1 := by
  rcases read_fenceEnding? h with hall | ⟨front, hfront, hlength⟩
  -- the fence reads all there is, so nothing is cut, or it reads a line feed behind this mark
  · have hcut : cut = [] := by
      rw [hall] at hread
      have hle := hread.length_le
      rw [List.length_append] at hle
      exact List.eq_nil_of_length_eq_zero (by omega)
    rw [hcut, List.append_nil]
  · rw [hfront] at hread
    obtain ⟨rest, rfl⟩ := hread
    have hfeed : after = (c :: front).drop mark.length ++ '\n' :: rest := by
      have hdrop := congrArg (List.drop mark.length) hafter
      rw [List.drop_left] at hdrop
      rw [← hdrop, List.append_assoc, ← List.cons_append, List.singleton_append,
        List.drop_append_of_le_length (Nat.le_succ_of_le hlength)]
    rw [Text.splitLine_append_of_mem]
    rw [hfeed]
    exact List.mem_append_right _ List.mem_cons_self

theorem fenceEnding?_of_isPrefix (h : fenceEnding? mark text = some ending) (hkept : kept <+: text)
    (hread : ending.read <+: kept) : fenceEnding? mark kept = some ending := by
  induction text generalizing ending kept with
  | nil => simp [fenceEnding?] at h
  | cons c text ih =>
    rcases fenceEnding?_cons_eq_some h with
      ⟨after, hafter, hblank, rfl⟩ | ⟨hopen, later, hlater, rfl⟩
    · obtain ⟨hne, htext⟩ := Text.afterToken?_eq_some_iff.mp hafter
      obtain ⟨left, rfl, hleft, hline⟩ := Text.exists_append_of_isPrefix mark (htext ▸ hkept) hread
      obtain ⟨hsame, -⟩ := Text.splitLine_of_isPrefix hleft hline
      rw [fenceEnding?_of_mark (Text.afterToken?_append hne left) (hsame ▸ hblank), hsame]
    · -- a mark that does not close has more than white space on its line, and still does
      have hread : [c] ++ later.read <+: kept := hread
      obtain ⟨left, rfl, ⟨cut, rfl⟩, hlaterRead⟩ := Text.exists_append_of_isPrefix [c] hkept hread
      rw [List.singleton_append, fenceEnding?_of_no_mark,
        ih hlater (List.prefix_append _ _) hlaterRead, Option.map_some]
      intro after hafter
      obtain ⟨hne, hleft⟩ := Text.afterToken?_eq_some_iff.mp hafter
      have hlonger : Text.afterToken? mark (c :: (left ++ cut)) = some (after ++ cut) := by
        rw [← List.cons_append, hleft, List.append_assoc]
        exact Text.afterToken?_append hne _
      rw [← splitLine_of_read_fenceEnding? hlater hlaterRead hleft]
      exact hopen _ hlonger

end Fences

/-! ## Comments -/

section Comments

variable {inner closer text kept after : Text} {depth : Nat} {pieces : List Text}

theorem commentPieces_of_closer (h : Text.afterToken? closer text = some after) :
    commentPieces inner closer depth text =
      match depth with
      | 0 => some [[]]
      | depth + 1 => (commentPieces inner closer depth after).map (prependPiece closer) := by
  cases text with
  | nil => exact absurd (Text.length_lt_of_afterToken? h) (Nat.not_lt_zero _)
  | cons c text =>
    rw [commentPieces]
    split
    · next hclose =>
      rw [h, Option.some.injEq] at hclose
      subst hclose
      cases depth <;> rfl
    · next hnone => simp [h] at hnone

theorem commentPieces_of_inner (hclose : Text.afterToken? closer text = none)
    (h : Text.afterToken? inner text = some after) :
    commentPieces inner closer depth text
      = (commentPieces inner closer (depth + 1) after).map (prependPiece inner) := by
  cases text with
  | nil => exact absurd (Text.length_lt_of_afterToken? h) (Nat.not_lt_zero _)
  | cons c text =>
    rw [commentPieces]
    split
    · next hsome => simp [hclose] at hsome
    · split
      · next hinner =>
        rw [h, Option.some.injEq] at hinner
        rw [hinner]
      · next hnone => simp [h] at hnone

theorem commentPieces_of_plain {c : Char} (hclose : Text.afterToken? closer (c :: text) = none)
    (hinner : Text.afterToken? inner (c :: text) = none) :
    commentPieces inner closer depth (c :: text)
      = (commentPieces inner closer depth text).map fun pieces ↦
        if c = '\n' then [c] :: pieces else prependPiece [c] pieces := by
  rw [commentPieces]
  split
  · next hsome => simp [hclose] at hsome
  · split
    · next hsome => simp [hinner] at hsome
    · rfl

theorem commentPieces_of_isPrefix (h : commentPieces inner closer depth text = some pieces)
    (hkept : kept <+: text) (hread : pieces.flatten ++ closer <+: kept) :
    commentPieces inner closer depth kept = some pieces := by
  fun_induction commentPieces inner closer depth text generalizing pieces kept with
  | case1 => simp at h
  | case2 c rest after hclose =>
    obtain ⟨hne, htext⟩ := Text.afterToken?_eq_some_iff.mp hclose
    rw [Option.some.injEq] at h
    rw [← h, ← List.append_nil closer] at hread
    obtain ⟨left, rfl, -, -⟩ := Text.exists_append_of_isPrefix closer (htext ▸ hkept) hread
    rw [commentPieces_of_closer (Text.afterToken?_append hne left), h]
  | case3 c rest after hclose depth _ ih =>
    obtain ⟨hne, htext⟩ := Text.afterToken?_eq_some_iff.mp hclose
    obtain ⟨later, hlater, rfl⟩ := Option.map_eq_some_iff.mp h
    rw [flatten_prependPiece, List.append_assoc] at hread
    obtain ⟨left, rfl, hleft, hread⟩ :=
      Text.exists_append_of_isPrefix closer (htext ▸ hkept) hread
    rw [commentPieces_of_closer (Text.afterToken?_append hne left)]
    exact congrArg (Option.map _) (ih hlater hleft hread)
  | case4 depth c rest hclose after hinner _ ih =>
    obtain ⟨hne, htext⟩ := Text.afterToken?_eq_some_iff.mp hinner
    obtain ⟨later, hlater, rfl⟩ := Option.map_eq_some_iff.mp h
    rw [flatten_prependPiece, List.append_assoc] at hread
    have hnone := Text.afterToken?_eq_none_of_isPrefix hkept hclose
    obtain ⟨left, rfl, hleft, hread⟩ :=
      Text.exists_append_of_isPrefix inner (htext ▸ hkept) hread
    rw [commentPieces_of_inner hnone (Text.afterToken?_append hne left)]
    exact congrArg (Option.map _) (ih hlater hleft hread)
  | case5 depth c rest hclose hinner ih =>
    obtain ⟨later, hlater, rfl⟩ := Option.map_eq_some_iff.mp h
    have hpieces : (if c = '\n' then [c] :: later else prependPiece [c] later).flatten
        = [c] ++ later.flatten := by
      split <;> simp
    rw [hpieces, List.append_assoc] at hread
    obtain ⟨left, rfl, hleft, hread⟩ := Text.exists_append_of_isPrefix [c] hkept hread
    rw [List.singleton_append] at hkept ⊢
    rw [commentPieces_of_plain (Text.afterToken?_eq_none_of_isPrefix hkept hclose)
      (Text.afterToken?_eq_none_of_isPrefix hkept hinner), ih hlater hleft hread, Option.map_some]

theorem commentEnding?_of_isPrefix {margin : Option Text} {ending : Ending}
    (h : commentEnding? inner closer margin text = some ending) (hkept : kept <+: text)
    (hread : ending.read <+: kept) : commentEnding? inner closer margin kept = some ending := by
  obtain ⟨pieces, hpieces, rfl⟩ := Option.map_eq_some_iff.mp h
  rw [commentEnding?, commentPieces_of_isPrefix hpieces hkept hread]
  rfl

end Comments

/-! ## Line comments -/

section LineComments

variable {opener text kept : Text}

theorem chainEnding_of_last (h : (Text.splitLine text).2 = []) :
    chainEnding opener text = ⟨[(Text.splitLine text).1], [], some (Text.splitLine text).1⟩ := by
  rw [chainEnding]
  dsimp only
  exact if_pos (List.isEmpty_iff.mpr h)

theorem chainEnding_of_other (hne : (Text.splitLine text).2 ≠ [])
    (h : Text.afterToken? opener ((Text.splitLine text).2.dropWhile isSpace) = none) :
    chainEnding opener text = ⟨[(Text.splitLine text).1], (Text.splitLine text).1, none⟩ := by
  rw [chainEnding]
  dsimp only
  rw [if_neg (by simpa using hne)]
  split
  · rfl
  · next hsome => simp [h] at hsome

theorem chainEnding_of_more {more : Text}
    (h : Text.afterToken? opener ((Text.splitLine text).2.dropWhile isSpace) = some more) :
    chainEnding opener text =
      ⟨(Text.splitLine text).1 :: (chainEnding opener more).lines,
        (Text.splitLine text).1 ++ ((Text.splitLine text).2.takeWhile isSpace
          ++ (opener ++ (chainEnding opener more).body)),
        (chainEnding opener more).last⟩ := by
  have hne : (Text.splitLine text).2 ≠ [] := by
    intro hnil
    rw [hnil] at h
    exact absurd (Text.length_lt_of_afterToken? h) (Nat.not_lt_zero _)
  rw [chainEnding]
  dsimp only
  rw [if_neg (by simpa using hne)]
  split
  · next hnone => simp [h] at hnone
  · next hsome =>
    rw [h, Option.some.injEq] at hsome
    rw [hsome]

theorem chainEnding_of_isPrefix (hkept : kept <+: text)
    (hread : (chainEnding opener text).read <+: kept) :
    (chainEnding opener kept).lines = (chainEnding opener text).lines
      ∧ (chainEnding opener kept).read = (chainEnding opener text).read := by
  fun_induction chainEnding opener text generalizing kept with
  | case1 text line next =>
    rename_i hend
    -- the run ends with the text, so nothing was cut
    have hnext : next = [] := List.isEmpty_iff.mp hend
    have hline : line ++ next = text := Text.splitLine_append text
    rw [hnext, List.append_nil] at hline
    have hsame : kept = text := hkept.eq_of_length_le (hline ▸ hread.length_le)
    rw [hsame, chainEnding_of_last hnext]
    exact ⟨rfl, rfl⟩
  | case2 text line next hend =>
    rename_i hopener
    have hread : line <+: kept := List.append_nil line ▸ hread
    obtain ⟨hline, hnext⟩ := Text.splitLine_of_isPrefix hkept hread
    -- the run now ends with the text or before other text; its lines are the same
    by_cases hnil : (Text.splitLine kept).2 = []
    · rw [chainEnding_of_last hnil, hline]
      exact ⟨rfl, (List.append_nil line).symm⟩
    · have hnone := Text.afterToken?_eq_none_of_isPrefix (Text.dropWhile_of_isPrefix isSpace hnext)
        hopener
      rw [chainEnding_of_other hnil hnone, hline]
      exact ⟨rfl, rfl⟩
  | case3 text line next hend more hopener _ others =>
    rename_i ih
    obtain ⟨hne, hdrop⟩ := Text.afterToken?_eq_some_iff.mp hopener
    have hnext : (Text.splitLine text).2 = next.takeWhile isSpace ++ (opener ++ more) := by
      rw [← hdrop, List.takeWhile_append_dropWhile]
    have hreads : ∀ ending : Ending, Ending.read ⟨line :: ending.lines,
        line ++ (next.takeWhile isSpace ++ (opener ++ ending.body)), ending.last⟩
        = line ++ (next.takeWhile isSpace ++ (opener ++ ending.read)) := by
      intro ending
      simp [Ending.read]
    rw [hreads] at hread
    obtain ⟨left, rfl, hsplit, hleft, hread⟩ := Text.exists_splitLine_of_isPrefix hkept hread
    obtain ⟨left, rfl, hleft, hread⟩ := Text.exists_append_of_isPrefix _ (hnext ▸ hleft) hread
    obtain ⟨left, rfl, hleft, hread⟩ := Text.exists_append_of_isPrefix opener hleft hread
    obtain ⟨htake, hdrop⟩ := Text.takeWhile_append_of_dropWhile hdrop hne left
    have hmore : Text.afterToken? opener ((Text.splitLine
        (line ++ (next.takeWhile isSpace ++ (opener ++ left)))).2.dropWhile isSpace)
        = some left := by
      rw [hsplit, hdrop, Text.afterToken?_append hne]
    obtain ⟨hlines, hothers⟩ := ih hleft hread
    rw [chainEnding_of_more hmore, hsplit]
    dsimp only
    rw [htake]
    refine ⟨congrArg (line :: ·) hlines, ?_⟩
    rw [hreads, hothers]
    exact (hreads others).symm

end LineComments

/-! ## Blocks closed by a whole line -/

section ClosingLines

variable {body token rest left front last : Text}

theorem prefix_of_lineEnd? (h : lineEnd? body token rest = some (front, last)) :
    body ++ token <+: front ++ last := by
  rcases lineEnd?_eq_some h with ⟨-, rfl, rfl⟩ | ⟨-, rfl⟩
  · exact List.prefix_refl _
  · exact List.prefix_append _ _

theorem lineEnd?_of_isPrefix (h : lineEnd? body token rest = some (front, last))
    (hleft : left <+: rest) (hread : front ++ last <+: body ++ token ++ left) :
    lineEnd? body token left = some (front, last) := by
  rcases lineEnd?_eq_some h with ⟨rfl, -, -⟩ | ⟨hbreak, rfl⟩
  · rw [List.prefix_nil.mp hleft]
    exact h
  · have hlast : last <+: left := (List.prefix_append_right_inj _).mp hread
    have hne : ¬left.isEmpty = true := by
      rw [List.isEmpty_iff]
      rintro rfl
      exact (Text.eq_append_of_lineBreak? hbreak).1 (List.prefix_nil.mp hlast)
    rw [lineEnd?, if_neg hne, Text.lineBreak?_of_isPrefix hleft hbreak hlast, Option.map_some]

theorem lineEnd?_eq_none_of_isPrefix (h : lineEnd? body token rest = none) (hleft : left <+: rest)
    (hne : left ≠ []) : lineEnd? body token left = none := by
  have hrest : rest ≠ [] := by
    rintro rfl
    exact hne (List.prefix_nil.mp hleft)
  rw [lineEnd?, if_neg (by simpa using hrest), Option.map_eq_none_iff] at h
  rw [lineEnd?, if_neg (by simpa using hne), Text.lineBreak?_eq_none_of_isPrefix hleft h,
    Option.map_none]

variable {closer text kept : Text}

theorem prefix_of_anchoredClose? (h : anchoredClose? closer text = some (front, last)) :
    closer ≠ [] ∧ closer <+: front ++ last := by
  obtain ⟨rest, hrest, hend⟩ := Option.bind_eq_some_iff.mp h
  exact ⟨(Text.afterToken?_eq_some_iff.mp hrest).1, prefix_of_lineEnd? hend⟩

theorem anchoredClose?_of_isPrefix (h : anchoredClose? closer text = some (front, last))
    (hkept : kept <+: text) (hread : front ++ last <+: kept) :
    anchoredClose? closer kept = some (front, last) := by
  obtain ⟨rest, hrest, hend⟩ := Option.bind_eq_some_iff.mp h
  obtain ⟨hne, rfl⟩ := Text.afterToken?_eq_some_iff.mp hrest
  have hcloser : closer ++ [] <+: kept :=
    (List.append_nil closer).symm ▸ (prefix_of_lineEnd? hend).trans hread
  obtain ⟨left, rfl, hleft, -⟩ := Text.exists_append_of_isPrefix closer hkept hcloser
  rw [anchoredClose?, Text.afterToken?_append hne, Option.bind_some]
  exact lineEnd?_of_isPrefix hend hleft hread

theorem anchoredClose?_eq_none_of_isPrefix (h : anchoredClose? closer text = none)
    (hkept : kept <+: text) (hlength : closer.length < kept.length) :
    anchoredClose? closer kept = none := by
  cases hrest : Text.afterToken? closer kept with
  | none => rw [anchoredClose?, hrest, Option.bind_none]
  | some left =>
    obtain ⟨hne, rfl⟩ := Text.afterToken?_eq_some_iff.mp hrest
    obtain ⟨cut, rfl⟩ := hkept
    rw [anchoredClose?, List.append_assoc, Text.afterToken?_append hne, Option.bind_some] at h
    rw [anchoredClose?, hrest, Option.bind_some]
    refine lineEnd?_eq_none_of_isPrefix h (List.prefix_append _ _) ?_
    rintro rfl
    rw [List.append_nil] at hlength
    exact Nat.lt_irrefl _ hlength

variable {terminator : Text}

theorem prefix_of_heredocClose? (h : heredocClose? terminator text = some (front, last)) :
    terminator ≠ [] ∧ terminator <+: front ++ last := by
  obtain ⟨rest, hrest, hend⟩ := Option.bind_eq_some_iff.mp h
  refine ⟨(Text.afterToken?_eq_some_iff.mp hrest).1, ?_⟩
  split at hend
  · exact (List.prefix_append _ _).trans (prefix_of_lineEnd? hend)
  · exact prefix_of_lineEnd? hend

theorem heredocClose?_append (hne : terminator ≠ []) (rest : Text) :
    heredocClose? terminator (terminator ++ rest) =
      match Text.afterToken? [';'] rest with
      | some after => lineEnd? terminator [';'] after
      | none => lineEnd? [] terminator rest := by
  rw [heredocClose?, Text.afterToken?_append hne]
  rfl

theorem heredocClose?_of_isPrefix (h : heredocClose? terminator text = some (front, last))
    (hkept : kept <+: text) (hread : front ++ last <+: kept) :
    heredocClose? terminator kept = some (front, last) := by
  obtain ⟨rest, hrest, hend⟩ := Option.bind_eq_some_iff.mp h
  obtain ⟨hne, rfl⟩ := Text.afterToken?_eq_some_iff.mp hrest
  split at hend
  · next after hsemicolon =>
    obtain ⟨hsemi, rfl⟩ := Text.afterToken?_eq_some_iff.mp hsemicolon
    have hboth : (terminator ++ [';']) ++ [] <+: kept :=
      (List.append_nil _).symm ▸ (prefix_of_lineEnd? hend).trans hread
    rw [← List.append_assoc] at hkept
    obtain ⟨left, rfl, hleft, -⟩ := Text.exists_append_of_isPrefix _ hkept hboth
    rw [List.append_assoc, heredocClose?_append hne, Text.afterToken?_append hsemi]
    exact lineEnd?_of_isPrefix hend hleft hread
  · next hsemicolon =>
    have honly : terminator ++ [] <+: kept :=
      (List.append_nil _).symm ▸ (prefix_of_lineEnd? hend).trans hread
    obtain ⟨left, rfl, hleft, -⟩ := Text.exists_append_of_isPrefix terminator hkept honly
    rw [heredocClose?_append hne, Text.afterToken?_eq_none_of_isPrefix hleft hsemicolon]
    exact lineEnd?_of_isPrefix hend hleft hread

/-- A line that is not the terminator does not become it when the text is cut behind its line feed,
since the terminator has none. -/
theorem heredocClose?_eq_none_of_isPrefix (hword : '\n' ∉ terminator)
    (h : heredocClose? terminator text = none) (hkept : kept <+: text) (hfeed : '\n' ∈ kept) :
    heredocClose? terminator kept = none := by
  cases hrest : Text.afterToken? terminator kept with
  | none => rw [heredocClose?, hrest, Option.bind_none]
  | some left =>
    obtain ⟨hne, rfl⟩ := Text.afterToken?_eq_some_iff.mp hrest
    obtain ⟨cut, rfl⟩ := hkept
    have hleft : '\n' ∈ left := (List.mem_append.mp hfeed).resolve_left hword
    rw [List.append_assoc, heredocClose?_append hne] at h
    rw [heredocClose?_append hne]
    obtain ⟨c, others, rfl⟩ := List.exists_cons_of_ne_nil (List.ne_nil_of_mem hleft)
    by_cases hc : c = ';'
    · subst hc
      have hsemicolon : ∀ more : Text, Text.afterToken? [';'] (';' :: more) = some more :=
        Text.afterToken?_append (List.cons_ne_nil _ _)
      rw [List.cons_append, hsemicolon] at h
      rw [hsemicolon]
      have hothers : '\n' ∈ others := (List.mem_cons.mp hleft).resolve_left (by decide)
      exact lineEnd?_eq_none_of_isPrefix h (List.prefix_append _ _) (List.ne_nil_of_mem hothers)
    · have hsemicolon : ∀ more : Text, Text.afterToken? [';'] (c :: more) = none := by
        intro more
        apply Option.eq_none_iff_forall_ne_some.mpr
        intro after hafter
        exact hc (List.cons.inj (Text.afterToken?_eq_some_iff.mp hafter).2).1
      rw [List.cons_append, hsemicolon, ← List.cons_append] at h
      rw [hsemicolon]
      exact lineEnd?_eq_none_of_isPrefix h (List.prefix_append _ _) (List.cons_ne_nil _ _)

end ClosingLines

section Lines

variable {close? : Text → Option (Text × Text)} {closer text kept : Text} {ending : Ending}

theorem linesEnding?_of_close {body last : Text} (hne : text ≠ [])
    (h : close? text = some (body, last)) :
    linesEnding? close? text = some ⟨[], body, some last⟩ := by
  obtain ⟨c, rest, rfl⟩ := List.exists_cons_of_ne_nil hne
  rw [linesEnding?, h]

theorem linesEnding?_of_no_close (hne : text ≠ []) (h : close? text = none) :
    linesEnding? close? text
      = (linesEnding? close? (Text.splitLine text).2).map fun ending ↦
        { ending with
          lines := (Text.splitLine text).1 :: ending.lines
          body := (Text.splitLine text).1 ++ ending.body } := by
  obtain ⟨c, rest, rfl⟩ := List.exists_cons_of_ne_nil hne
  rw [linesEnding?, h]

variable (hcloser : ∀ {text body last}, close? text = some (body, last) →
  closer ≠ [] ∧ closer <+: body ++ last)

include hcloser

theorem length_le_of_linesEnding? (h : linesEnding? close? text = some ending) :
    closer.length ≤ ending.read.length := by
  fun_induction linesEnding? close? text generalizing ending with
  | case1 => simp at h
  | case2 c rest body last hhere =>
    rw [Option.some.injEq] at h
    exact h ▸ (hcloser hhere).2.length_le
  | case3 c rest hhere _ line =>
    rename_i ih
    obtain ⟨later, hlater, rfl⟩ := Option.map_eq_some_iff.mp h
    refine Nat.le_trans (ih hlater) ?_
    simp [Ending.read]

/-- Whole lines are stable if their test is: a line that closes goes on to close, and a line that
does not close does not begin to, as long as its line feed and a whole closing line remain. -/
theorem linesEnding?_of_isPrefix
    (hyes : ∀ {text kept body last}, close? text = some (body, last) → kept <+: text →
      body ++ last <+: kept → close? kept = some (body, last))
    (hno : ∀ {text kept}, close? text = none → kept <+: text → closer.length < kept.length →
      '\n' ∈ kept → close? kept = none)
    (h : linesEnding? close? text = some ending) (hkept : kept <+: text)
    (hread : ending.read <+: kept) : linesEnding? close? kept = some ending := by
  fun_induction linesEnding? close? text generalizing ending kept with
  | case1 => simp at h
  | case2 c rest body last hhere =>
    rw [Option.some.injEq] at h
    rw [← h] at hread ⊢
    obtain ⟨hne, hfront⟩ := hcloser hhere
    refine linesEnding?_of_close ?_ (hyes hhere hkept hread)
    rintro rfl
    exact hne (List.prefix_nil.mp (hfront.trans hread))
  | case3 c rest hhere _ line =>
    rename_i ih
    obtain ⟨later, hlater, rfl⟩ := Option.map_eq_some_iff.mp h
    have hread : line ++ later.read <+: kept := by
      simpa [Ending.read] using hread
    -- a line that closes nothing is not the last, so it has its line feed
    have hfeed : '\n' ∈ line := by
      by_cases hmem : '\n' ∈ c :: rest
      · obtain ⟨front, hfront⟩ := Text.exists_splitLine_eq hmem
        rw [show line = front ++ ['\n'] from hfront]
        exact List.mem_append_right _ (List.mem_singleton_self _)
      · rw [Text.splitLine_of_not_mem hmem, linesEnding?] at hlater
        simp at hlater
    obtain ⟨left, rfl, hsplit, hleft, hlaterRead⟩ :=
      Text.exists_splitLine_of_isPrefix hkept hread
    have hkeptFeed : '\n' ∈ line ++ left := List.mem_append_left _ hfeed
    have hlength : closer.length < (line ++ left).length := by
      have hlater := Nat.le_trans (length_le_of_linesEnding? hcloser hlater) hlaterRead.length_le
      have hpos := List.length_pos_iff.mpr (List.ne_nil_of_mem hfeed)
      rw [List.length_append]
      omega
    rw [linesEnding?_of_no_close (List.ne_nil_of_mem hkeptFeed)
      (hno hhere hkept hlength hkeptFeed), hsplit]
    dsimp only
    rw [ih hlater hleft hlaterRead]
    rfl

end Lines

/-! ## All kinds -/

/-- The word that closes a heredoc stands on one line. -/
def OpenBlock.IsProper : OpenBlock → Prop
  | .delimited _ => True
  | .heredoc label => '\n' ∉ label.terminator

/-- **A block that closes within what remains of the text is read there as before.** -/
theorem OpenBlock.ending?_of_isPrefix {block : OpenBlock} {text kept : Text} {ending : Ending}
    (hproper : block.IsProper) (h : block.ending? text = some ending) (hkept : kept <+: text)
    (hread : ending.read <+: kept) :
    ∃ other, block.ending? kept = some other ∧ other.lines = ending.lines
      ∧ other.read = ending.read := by
  cases block with
  | heredoc label =>
    refine ⟨ending, linesEnding?_of_isPrefix prefix_of_heredocClose? heredocClose?_of_isPrefix ?_ h
      hkept hread, rfl, rfl⟩
    intro text kept hnone hprefix _ hfeed
    exact heredocClose?_eq_none_of_isPrefix hproper hnone hprefix hfeed
  | delimited form =>
    cases form with
    | string opener closer escape =>
      obtain ⟨body, hbody, rfl⟩ := Option.map_eq_some_iff.mp h
      refine ⟨_, ?_, rfl, rfl⟩
      rw [OpenBlock.ending?, Delimited.ending?, stringBody?_of_isPrefix hbody hkept hread]
      rfl
    | line opener =>
      rw [OpenBlock.ending?, Delimited.ending?, Option.some.injEq] at h
      rw [← h] at hread ⊢
      obtain ⟨hlines, hsame⟩ := chainEnding_of_isPrefix hkept hread
      exact ⟨_, rfl, congrArg (List.map _) hlines, hsame⟩
    | comment opener closer margin =>
      exact ⟨ending, commentEnding?_of_isPrefix h hkept hread, rfl, rfl⟩
    | doubled quote | raw openers quote =>
      obtain ⟨body, hbody, rfl⟩ := Option.map_eq_some_iff.mp h
      refine ⟨_, ?_, rfl, rfl⟩
      rw [OpenBlock.ending?, Delimited.ending?, doubledBody?_of_isPrefix hbody hkept hread]
      rfl
    | anchored opener closer =>
      refine ⟨ending, linesEnding?_of_isPrefix prefix_of_anchoredClose? anchoredClose?_of_isPrefix
        ?_ h hkept hread, rfl, rfl⟩
      intro text kept hnone hprefix hlength _
      exact anchoredClose?_eq_none_of_isPrefix hnone hprefix hlength
    | nested opener closer margin =>
      exact ⟨ending, commentEnding?_of_isPrefix h hkept hread, rfl, rfl⟩
    | fence mark => exact ⟨ending, fenceEnding?_of_isPrefix h hkept hread, rfl, rfl⟩

end CommentBlocks
