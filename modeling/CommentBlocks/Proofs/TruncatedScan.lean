import CommentBlocks.Proofs.ResumedScan
import CommentBlocks.Proofs.TruncatedBlocks

/-!
# Scanning a text that is cut short

What a scan has found when it comes to a seek point does not depend on what follows there. Cut the
text off at the seek point: the scan takes the same turns, finds the same comments, and ends where
the text now does.

The turns are compared one by one. A turn tries blocks, and a block that is refused may have looked
past the end of the turn, but it is refused on a shorter text as well; the block that is opened has
its opener within the turn, and reads as before (`OpenBlock.ending?_of_isPrefix`).
-/

namespace CommentBlocks

/-! ## Openings -/

section Openings

variable {text kept body last : Text} {opened : OpenBlock}

theorem plainOpening_of_isPrefix {form : Delimited} (hkept : kept <+: text)
    (h : plainOpening form text = .opened opened body last) (hopener : body ++ last <+: kept) :
    plainOpening form kept = .opened opened body last := by
  obtain ⟨hfind, rfl, rfl⟩ := plainOpening_eq_opened h
  obtain ⟨hstarts, before, after, hopeners, hbefore⟩ := List.find?_eq_some_iff_append.mp hfind
  have hstill : form.openers.find? (Text.startsWith · kept) = some last := by
    refine List.find?_eq_some_iff_append.mpr
      ⟨Text.startsWith_of_isPrefix hstarts hopener, before, after, hopeners, ?_⟩
    intro other hother
    have hrefused := hbefore other hother
    rw [Bool.not_eq_true', ← Bool.not_eq_true] at hrefused ⊢
    exact Text.startsWith_eq_false_of_isPrefix hkept hrefused
  rw [plainOpening, hstill]

theorem plainOpening_refused_of_isPrefix {form : Delimited} {returned : Bool}
    (hkept : kept <+: text) (h : plainOpening form text = .refused returned) :
    plainOpening form kept = .refused returned := by
  unfold plainOpening at h
  split at h
  · simp at h
  · next hfind =>
    have hstill : form.openers.find? (Text.startsWith · kept) = none := by
      rw [List.find?_eq_none] at hfind ⊢
      intro opener hopener
      exact Text.startsWith_eq_false_of_isPrefix hkept (hfind opener hopener)
    rw [plainOpening, hstill]
    exact h

theorem anchoredOpening_of_isPrefix {opener closer : Text} {position : Position}
    (hkept : kept <+: text)
    (h : anchoredOpening opener closer ⟨position, text⟩ = .opened opened body last)
    (hopener : body ++ last <+: kept) :
    anchoredOpening opener closer ⟨position, kept⟩ = .opened opened body last := by
  obtain ⟨hcolumn, hbreak, rfl, rfl⟩ := anchoredOpening_eq_opened h
  obtain ⟨rest, hrest, hline⟩ := Option.bind_eq_some_iff.mp hbreak
  obtain ⟨hne, rfl⟩ := Text.afterToken?_eq_some_iff.mp hrest
  obtain ⟨left, rfl, hleft, hlast⟩ := Text.exists_append_of_isPrefix body hkept hopener
  rw [anchoredOpening, if_neg (not_not.mpr hcolumn), Text.afterToken?_append hne, Option.bind_some,
    Text.lineBreak?_of_isPrefix hleft hline hlast]

theorem anchoredOpening_refused_of_isPrefix {opener closer : Text} {position : Position}
    {returned : Bool} (hkept : kept <+: text)
    (h : anchoredOpening opener closer ⟨position, text⟩ = .refused returned) :
    anchoredOpening opener closer ⟨position, kept⟩ = .refused returned := by
  unfold anchoredOpening at h ⊢
  by_cases hcolumn : position.character ≠ 0
  · rw [if_pos hcolumn] at h ⊢
    exact h
  · rw [if_neg hcolumn] at h ⊢
    split at h
    · simp at h
    · next hnone =>
      have hstill : (Text.afterToken? opener kept).bind Text.lineBreak? = none := by
        apply Option.bind_eq_none_iff.mpr
        intro left hleft
        obtain ⟨hne, rfl⟩ := Text.afterToken?_eq_some_iff.mp hleft
        obtain ⟨cut, rfl⟩ := hkept
        dsimp only at hnone
        rw [List.append_assoc, Text.afterToken?_append hne, Option.bind_some] at hnone
        exact Text.lineBreak?_eq_none_of_isPrefix (List.prefix_append _ _) hnone
      rw [hstill]
      exact h

/-- The label of a heredoc needs the line feed that ends its line. -/
theorem HeredocLabel.ofLine?_of_not_mem {line : Text} (h : '\n' ∉ line) :
    HeredocLabel.ofLine? line = none := by
  refine if_neg fun hlast ↦ h ?_
  exact List.mem_of_getLast? hlast

theorem heredocOpening_append {rest line tail left : Text} {label : HeredocLabel}
    (hdrop : rest.dropWhile isSpace = line ++ tail)
    (hline : (Text.splitLine (line ++ tail)).1 = line)
    (hlabel : HeredocLabel.ofLine? line = some label) (hleft : left <+: tail) :
    heredocOpening (heredocOpener ++ (rest.takeWhile isSpace ++ (line ++ left)))
      = .opened (.heredoc label) (heredocOpener ++ rest.takeWhile isSpace) line := by
  have hne : line ≠ [] := by
    rintro rfl
    exact absurd ((HeredocLabel.ofLine?_of_not_mem List.not_mem_nil).symm.trans hlabel) (by simp)
  obtain ⟨htake, hdrop⟩ := Text.takeWhile_append_of_dropWhile hdrop hne left
  have hsame : (Text.splitLine (line ++ left)).1 = line := by
    have hprefix : line ++ left <+: line ++ tail := (List.prefix_append_right_inj line).mpr hleft
    rw [(Text.splitLine_of_isPrefix hprefix (hline.symm ▸ List.prefix_append _ _)).1, hline]
  rw [heredocOpening, Text.afterToken?_append (by decide)]
  dsimp only
  rw [htake, hdrop, hsame, hlabel]

theorem heredocOpening_of_isPrefix (hkept : kept <+: text)
    (h : heredocOpening text = .opened opened body last) (hopener : body ++ last <+: kept) :
    heredocOpening kept = .opened opened body last := by
  obtain ⟨rest, label, rfl, hlast, hlabel, rfl, rfl⟩ := heredocOpening_eq_opened h
  have hdrop : rest.dropWhile isSpace
      = last ++ (Text.splitLine (rest.dropWhile isSpace)).2 := by
    rw [hlast, Text.splitLine_append]
  have htext : heredocOpener ++ rest = heredocOpener ++ rest.takeWhile isSpace
      ++ (last ++ (Text.splitLine (rest.dropWhile isSpace)).2) := by
    rw [← hdrop, List.append_assoc, List.takeWhile_append_dropWhile]
  rw [htext] at hkept
  obtain ⟨left, rfl, hleft, hread⟩ := Text.exists_append_of_isPrefix _ hkept hopener
  rw [← List.append_nil last] at hread
  obtain ⟨left, rfl, hleft, -⟩ := Text.exists_append_of_isPrefix _ hleft hread
  rw [List.append_assoc]
  exact heredocOpening_append hdrop (hdrop ▸ hlast.symm) hlabel hleft

theorem heredocOpening_refused_of_isPrefix {returned : Bool} (hkept : kept <+: text)
    (h : heredocOpening text = .refused returned) :
    ∃ returned, heredocOpening kept = .refused returned := by
  cases hstill : Text.afterToken? heredocOpener kept with
  | none => exact ⟨false, by rw [heredocOpening, hstill]⟩
  | some left =>
    obtain ⟨hne, rfl⟩ := Text.afterToken?_eq_some_iff.mp hstill
    obtain ⟨cut, rfl⟩ := hkept
    have hnone : HeredocLabel.ofLine? (Text.splitLine (left.dropWhile isSpace)).1 = none := by
      by_cases hfeed : '\n' ∈ left.dropWhile isSpace
      · -- the line was not cut, so it is the line that was refused
        obtain ⟨more, hmore⟩ := Text.dropWhile_of_isPrefix isSpace (List.prefix_append left cut)
        rw [heredocOpening, List.append_assoc, Text.afterToken?_append hne] at h
        dsimp only at h
        rw [← hmore, Text.splitLine_append_of_mem hfeed] at h
        split at h
        · simp at h
        · assumption
      · rw [Text.splitLine_of_not_mem hfeed]
        exact HeredocLabel.ofLine?_of_not_mem hfeed
    refine ⟨true, ?_⟩
    rw [heredocOpening, hstill]
    dsimp only
    rw [hnone]

end Openings

theorem isIdentifierPart_of_isIdentifierStart {c : Char} (h : isIdentifierStart c = true) :
    isIdentifierPart c = true := by
  rw [isIdentifierPart, Bool.or_eq_true]
  exact Or.inl h

theorem Text.not_mem_of_isIdentifier {text : Text} {c : Char} (hc : isIdentifierPart c = false)
    (h : text.isIdentifier = true) : c ∉ text := by
  cases text with
  | nil => exact List.not_mem_nil
  | cons first others =>
    rw [Text.isIdentifier, Bool.and_eq_true, List.all_eq_true] at h
    intro hmem
    have hpart : isIdentifierPart c = true := by
      rcases List.mem_cons.mp hmem with rfl | hmem
      · exact isIdentifierPart_of_isIdentifierStart h.1
      · exact h.2 _ hmem
    exact absurd hpart (hc ▸ Bool.false_ne_true)

theorem HeredocLabel.isIdentifier_of_ofLine? {line : Text} {label : HeredocLabel}
    (h : HeredocLabel.ofLine? line = some label) : label.terminator.isIdentifier = true := by
  rw [HeredocLabel.ofLine?, Option.ite_none_right_eq_some, HeredocLabel.ofText?] at h
  rw [Option.ite_none_right_eq_some, Option.some.injEq] at h
  exact h.2.2 ▸ h.2.1

namespace Place

variable {position : Position} {text kept opener : Text} {block : Block} {opened : OpenBlock}
  {blocks : List Block}

theorem opening?_isProper {place : Place} (h : place.opening? block = some (opened, opener)) :
    opened.IsProper := by
  obtain ⟨body, last, hopening, -⟩ := openingAt_of_opening? h
  rcases Block.openingAt_eq_opened hopening with ⟨form, -, rfl⟩ | ⟨label, -, rfl, hlabel⟩
  · trivial
  · exact Text.not_mem_of_isIdentifier (by decide +kernel)
      (HeredocLabel.isIdentifier_of_ofLine? hlabel)

theorem opening?_of_isPrefix (hkept : kept <+: text)
    (h : (⟨position, text⟩ : Place).opening? block = some (opened, opener))
    (hopener : opener <+: kept) :
    (⟨position, kept⟩ : Place).opening? block = some (opened, opener) := by
  unfold opening? at h
  split at h
  · next opened body last hopening =>
    rw [Option.some.injEq, Prod.mk.injEq] at h
    obtain ⟨rfl, rfl⟩ := h
    have hstill : block.openingAt ⟨position, kept⟩ = .opened opened body last := by
      unfold Block.openingAt at hopening ⊢
      split at hopening
      · exact heredocOpening_of_isPrefix hkept hopening hopener
      · exact anchoredOpening_of_isPrefix hkept hopening hopener
      · exact plainOpening_of_isPrefix hkept hopening hopener
    rw [opening?, hstill]
  · simp at h

theorem opening?_eq_none_of_isPrefix (hkept : kept <+: text)
    (h : (⟨position, text⟩ : Place).opening? block = none) :
    (⟨position, kept⟩ : Place).opening? block = none := by
  unfold opening? at h
  split at h
  · simp at h
  · next returned hopening =>
    have hstill : ∃ returned, block.openingAt ⟨position, kept⟩ = .refused returned := by
      unfold Block.openingAt at hopening ⊢
      split at hopening
      · exact heredocOpening_refused_of_isPrefix hkept hopening
      · exact ⟨_, anchoredOpening_refused_of_isPrefix hkept hopening⟩
      · exact ⟨_, plainOpening_refused_of_isPrefix hkept hopening⟩
    obtain ⟨returned, hstill⟩ := hstill
    rw [opening?, hstill]

theorem findSome?_opening?_of_isPrefix (hkept : kept <+: text)
    (h : blocks.findSome? (⟨position, text⟩ : Place).opening? = some (opened, opener))
    (hopener : opener <+: kept) :
    opened.IsProper
      ∧ blocks.findSome? (⟨position, kept⟩ : Place).opening? = some (opened, opener) := by
  induction blocks with
  | nil => simp at h
  | cons block blocks ih =>
    rw [List.findSome?_cons] at h ⊢
    cases hblock : (⟨position, text⟩ : Place).opening? block with
    | none =>
      rw [hblock] at h
      rw [opening?_eq_none_of_isPrefix hkept hblock]
      exact ih h
    | some found =>
      rw [hblock, Option.some.injEq] at h
      rw [h] at hblock
      rw [opening?_of_isPrefix hkept hblock hopener]
      exact ⟨opening?_isProper hblock, rfl⟩

theorem findSome?_opening?_eq_none_of_isPrefix (hkept : kept <+: text)
    (h : blocks.findSome? (⟨position, text⟩ : Place).opening? = none) :
    blocks.findSome? (⟨position, kept⟩ : Place).opening? = none := by
  rw [List.findSome?_eq_none_iff] at h ⊢
  intro block hblock
  exact opening?_eq_none_of_isPrefix hkept (h block hblock)

/-! ## Turns -/

/-- **A turn depends only on the text it reads.** Whatever is cut off behind it, the turn finds the
same comment and ends at the same position. -/
theorem turn_of_isPrefix {read rest : Text} {comment : Option Comment} {next : Position}
    (h : (⟨position, read ++ rest⟩ : Place).turn blocks = .moved comment ⟨next, rest⟩)
    (hkept : kept <+: rest) :
    (⟨position, read ++ kept⟩ : Place).turn blocks = .moved comment ⟨next, kept⟩ := by
  -- a front of the text that is read leaves `rest` unread only if it is `read`
  have hread : ∀ front more : Text, read ++ rest = front ++ more →
      (⟨next, rest⟩ : Place) = (⟨position, read ++ rest⟩ : Place).after front →
        more = rest ∧ front = read ∧ next = position.advanceText read := by
    intro front more hfront hafter
    rw [Place.after, Place.mk.injEq, hfront, List.drop_left] at hafter
    obtain ⟨hnext, rfl⟩ := hafter
    have hsame := List.append_cancel_right hfront
    exact ⟨rfl, hsame.symm, hsame ▸ hnext⟩
  have hall : read ++ kept <+: read ++ rest := (List.prefix_append_right_inj read).mpr hkept
  have hafter : ∀ position : Position, (⟨position, read ++ kept⟩ : Place).after read
      = ⟨position.advanceText read, kept⟩ := fun position ↦ by rw [Place.after, List.drop_left]
  rcases turn_eq_moved_cases h with
    ⟨c, more, hrest, hnone, rfl, hnext⟩
      | ⟨opened, opener, ending, more, hrest, hopening, hending, rfl, hnext⟩
  · obtain ⟨rfl, rfl, rfl⟩ := hread [c] more hrest hnext
    rw [turn_of_no_opening rfl (findSome?_opening?_eq_none_of_isPrefix hall hnone), hafter]
  · obtain ⟨rfl, rfl, rfl⟩ :=
      hread (opener ++ ending.read) more (by rw [List.append_assoc]; exact hrest) hnext
    have hopener : opener <+: opener ++ ending.read ++ kept := by
      rw [List.append_assoc]
      exact List.prefix_append _ _
    obtain ⟨hproper, hstill⟩ := findSome?_opening?_of_isPrefix hall hopening hopener
    obtain ⟨other, hother, hlines, hsame⟩ := OpenBlock.ending?_of_isPrefix hproper hending
      ((List.prefix_append_right_inj ending.read).mpr hkept) (List.prefix_append _ _)
    rw [turn_of_ending (List.append_assoc _ _ _) hstill hother, hlines, hsame, hafter]

end Place

/-! ## Runs -/

namespace Reaches

variable {blocks : List Block} {start place : Place} {found : List Comment}

/-- A run to a seek point depends only on the text up to there. -/
theorem exists_of_isPrefix (h : Reaches blocks start found place) :
    ∃ read, start.rest = read ++ place.rest ∧ ∀ kept, kept <+: place.rest →
      Reaches blocks ⟨start.position, read ++ kept⟩ found ⟨place.position, kept⟩ := by
  induction h with
  | start => exact ⟨[], rfl, fun kept _ ↦ .start⟩
  | @turn found place next comment _ hmoved ih =>
    obtain ⟨front, hstart, hfront⟩ := ih
    obtain ⟨read, rest, -, hrest, rfl⟩ := Place.turn_eq_moved hmoved
    have hnext : place.after read = ⟨place.position.advanceText read, rest⟩ := by
      rw [Place.after, hrest, List.drop_left]
    refine ⟨front ++ read, ?_, ?_⟩
    · rw [hstart, hnext, hrest, List.append_assoc]
    · intro kept hkept
      rw [hnext] at hkept hmoved ⊢
      have hplace : place = ⟨place.position, read ++ rest⟩ := by rw [← hrest]
      have hread : read ++ kept <+: place.rest := by
        rw [hrest]
        exact (List.prefix_append_right_inj read).mpr hkept
      rw [hplace] at hmoved
      rw [List.append_assoc]
      exact (hfront (read ++ kept) hread).turn (Place.turn_of_isPrefix hmoved hkept)

end Reaches

namespace Source

variable (source : Source)

theorem ofBytes_take_bytes (index : Nat)
    (hfits : source.start.byteOffset + source.text.byteLength ≤ maxOffset) :
    ofBytes (source.bytes.take ((source.positionAt index).byteOffset - source.start.byteOffset))
        source.origin source.start
      = .ok ⟨source.text.take index, source.origin, source.start⟩ := by
  have htake : source.bytes.take (Text.byteLength (source.text.take index))
      = Utf8.encode (source.text.take index) := by
    rw [bytes]
    nth_rewrite 2 [← List.take_append_drop index source.text]
    exact Utf8.take_encode_append _ _
  rw [byteOffset_positionAt, Nat.add_sub_cancel_left, htake, ofBytes_encode]
  have hlength := source.byteLength_take_add_drop index
  omega

theorem scan_take {profile : Profile} {config : ScanConfig} {found : List Comment} {index : Nat}
    (hseek : Reaches profile.blocks source.cursor.here found (source.placeAt index)) :
    (⟨source.text.take index, source.origin, source.start⟩ : Source).scan profile config
      = ⟨source.origin, recordedBlocks config source.origin found, none⟩ := by
  obtain ⟨read, hrest, hreaches⟩ := hseek.exists_of_isPrefix
  have hread : source.text.take index = read := by
    exact List.append_cancel_right ((List.take_append_drop index source.text).trans hrest)
  have hend := hreaches [] List.nil_prefix
  rw [List.append_nil, ← hread] at hend
  have hsurvey : survey profile.blocks
      (⟨source.text.take index, source.origin, source.start⟩ : Source).cursor = ⟨found, none⟩ := by
    rw [Reaches.survey_eq hend, survey_of_finished rfl]
    exact congrArg (Survey.mk · none) (List.append_nil found)
  rw [scan, hsurvey]
  rfl

theorem exists_scan_front {profile : Profile} {config : ScanConfig} {found : List Comment}
    {place : Place} (hfits : source.start.byteOffset + source.text.byteLength ≤ maxOffset)
    (hseek : Reaches profile.blocks source.cursor.here found place) :
    ∃ front, ofBytes (source.bytes.take (place.position.byteOffset - source.start.byteOffset))
        source.origin source.start = .ok front
      ∧ front.scan profile config
        = ⟨source.origin, recordedBlocks config source.origin found, none⟩ := by
  obtain ⟨index, -, rfl⟩ := hseek.exists_index source
  exact ⟨_, source.ofBytes_take_bytes index hfits, source.scan_take hseek⟩

/-- **What a scan has found at a seek point does not depend on what follows.** Cut off at a seek
point, a source is scanned to its end, and the blocks are those recorded when the scan of the whole
came there. In particular a scan that is stopped by an open block finds what the scan of the text
before that block finds. -/
theorem scan_truncated (profile : Profile) (config : ScanConfig)
    (hfits : source.start.byteOffset + source.text.byteLength ≤ maxOffset) :
    (∀ {found : List Comment} {place : Place},
      Reaches profile.blocks source.cursor.here found place →
        ∃ front, ofBytes (source.bytes.take (place.position.byteOffset - source.start.byteOffset))
            source.origin source.start = .ok front
          ∧ front.scan profile config
            = ⟨source.origin, recordedBlocks config source.origin found, none⟩)
      ∧ ∀ {block : Unterminated}, (source.scan profile config).unterminated = some block →
        ∃ front, ofBytes (source.bytes.take (block.position.byteOffset - source.start.byteOffset))
            source.origin source.start = .ok front
          ∧ front.scan profile config
            = ⟨source.origin, (source.scan profile config).blocks, none⟩ := by
  constructor
  · intro found place hseek
    exact source.exists_scan_front hfits hseek
  · -- a scan that stops does so at a seek point, with all its comments found
    intro block hstopped
    obtain ⟨place, hseek, hposition⟩ := Reaches.of_unterminated hstopped
    rw [← hposition, scan_blocks]
    exact source.exists_scan_front hfits hseek

/-- A string is left open behind a comment: the scan of the text before it finds the comment. -/
theorem scan_truncated_at_open_string :
    let profile : Profile := ⟨"x", "X", [], [.comment "/*" "*/", .verbatim "\"" "\""]⟩
    let source : Source := ⟨"/*one*/ \"two".toList, ⟨"a"⟩, .zero⟩
    (source.scan profile ⟨0⟩).unterminated = some ⟨⟨0, 8, 8⟩, .string⟩
      ∧ ∃ front, ofBytes (source.bytes.take 8) ⟨"a"⟩ .zero = .ok front
        ∧ front.scan profile ⟨0⟩ = ⟨⟨"a"⟩, [⟨⟨"a"⟩, 1, "one".toList⟩], none⟩ := by
  intro profile source
  have hstopped : (source.scan profile ⟨0⟩).unterminated = some ⟨⟨0, 8, 8⟩, .string⟩ := by
    decide +kernel +zetaReduce
  have hblocks : (source.scan profile ⟨0⟩).blocks = [⟨⟨"a"⟩, 1, "one".toList⟩] := by
    decide +kernel +zetaReduce
  rw [← hblocks]
  exact ⟨hstopped, (source.scan_truncated profile ⟨0⟩ (by decide)).2 hstopped⟩

end Source

end CommentBlocks
