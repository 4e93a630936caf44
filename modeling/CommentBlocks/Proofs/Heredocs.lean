import CommentBlocks.Proofs.FirstPlaces
import CommentBlocks.Proofs.LineBreakText
import CommentBlocks.Proofs.TruncatedScan
import Mathlib.Data.List.TakeWhile

/-!
# The grammar of heredocs

A heredoc has no fixed delimiters. Its opening line names the word that closes it, and the closing
line is that word, perhaps with a semicolon. Both lines are read by steps that look ahead and go
back: white space is skipped and trimmed, quotes are tried in turn, the semicolon may be there or
not, and there are three ways for a line to end. Here both are described as texts, by what they are
made of (`HeredocLabel.Opens`, `HeredocLabel.ClosedBy`), and reading is shown to accept these texts
and no others.

On the opening line this is because nothing in a label is white space (`IsWritten.not_white`), so
skipping and trimming stop where the label begins and ends. On the closing line it is because the
word has no line feed: the line on which it stands is the line that is tested.
-/

namespace CommentBlocks

/-! ## Labels -/

theorem isIdentifierPart_of_isWhiteSpace {c : Char} (h : isWhiteSpace c = true) :
    isIdentifierPart c = false := by
  let gaps := [(0x00, 0x2F), (0x7B, 0xA9), (0x1680, 0x1680), (0x2000, 0x206F), (0x3000, 0x3000)]
  -- all white space lies in gaps of the tables of letters and numbers
  have hgaps : ∀ gap ∈ gaps, ∀ run ∈ alphabeticRanges ++ numericRanges,
      run.2 < gap.1 ∨ gap.2 < run.1 := by
    decide +kernel
  obtain ⟨gap, hgap, hlow, hhigh⟩ : ∃ gap ∈ gaps, gap.1 ≤ c.toNat ∧ c.toNat ≤ gap.2 := by
    simp only [isWhiteSpace, Bool.or_eq_true, Bool.and_eq_true, decide_eq_true_eq, beq_iff_eq] at h
    simp only [gaps, List.exists_mem_cons_iff, List.not_mem_nil, false_and, exists_false, or_false]
    omega
  have houtside : ∀ run ∈ alphabeticRanges ++ numericRanges,
      ¬(decide (run.1 ≤ c.toNat) && decide (c.toNat ≤ run.2)) = true := by
    intro run hrun hinside
    have hapart := hgaps gap hgap run hrun
    rw [Bool.and_eq_true, decide_eq_true_eq, decide_eq_true_eq] at hinside
    omega
  have hletter : isAlphabetic c = false :=
    List.any_eq_false.mpr fun run hrun ↦ houtside run (List.mem_append_left _ hrun)
  have hnumber : isNumeric c = false :=
    List.any_eq_false.mpr fun run hrun ↦ houtside run (List.mem_append_right _ hrun)
  rw [isIdentifierPart, hletter, hnumber, Bool.or_false, Bool.or_false, beq_eq_false_iff_ne]
  rintro rfl
  exact absurd h (by decide)

theorem unquote?_eq_some_iff {quote : Char} {text inner : Text} :
    unquote? quote text = some inner ↔ text = quote :: (inner ++ [quote]) := by
  cases text with
  | nil => simp [unquote?]
  | cons first rest =>
    rw [unquote?, Option.ite_none_right_eq_some, Option.some.injEq, List.cons.injEq]
    constructor
    · rintro ⟨⟨rfl, hlast⟩, rfl⟩
      obtain ⟨front, rfl⟩ := List.getLast?_eq_some_iff.mp hlast
      rw [List.dropLast_concat]
      exact ⟨rfl, rfl⟩
    · rintro ⟨rfl, rfl⟩
      exact ⟨⟨rfl, List.getLast?_concat⟩, List.dropLast_concat⟩

namespace HeredocLabel

variable {label : HeredocLabel} {written line rest text : Text}

/-- The ways to write a label: an identifier, bare or in quotes. Single quotes make a nowdoc. -/
inductive IsWritten : HeredocLabel → Text → Prop where
  /-- The word alone. -/
  | bare {word : Text} (hword : word.isIdentifier = true) : IsWritten ⟨word, .heredoc⟩ word
  /-- The word in double quotes. -/
  | double {word : Text} (hword : word.isIdentifier = true) :
    IsWritten ⟨word, .heredoc⟩ ('"' :: (word ++ ['"']))
  /-- The word in single quotes. -/
  | single {word : Text} (hword : word.isIdentifier = true) :
    IsWritten ⟨word, .nowdoc⟩ ('\'' :: (word ++ ['\'']))

theorem unquote?_of_isIdentifier {quote : Char} (hquote : isIdentifierPart quote = false)
    (h : text.isIdentifier = true) : unquote? quote text = none := by
  apply Option.eq_none_iff_forall_ne_some.mpr
  intro inner hinner
  apply Text.not_mem_of_isIdentifier hquote h
  rw [unquote?_eq_some_iff.mp hinner]
  exact List.mem_cons_self

theorem unquote?_of_ne {first quote : Char} (h : first ≠ quote) (rest : Text) :
    unquote? quote (first :: rest) = none :=
  if_neg fun hboth ↦ h hboth.1

theorem ofText?_eq_some_iff : ofText? written = some label ↔ label.IsWritten written := by
  rw [ofText?, Option.ite_none_right_eq_some]
  constructor
  · rintro ⟨hword, hlabel⟩
    rw [Option.some.injEq] at hlabel
    subst hlabel
    revert hword
    split
    · next inner hinner =>
      intro hword
      rw [unquote?_eq_some_iff.mp hinner]
      exact .single hword
    · split
      · next inner hinner =>
        intro hword
        rw [unquote?_eq_some_iff.mp hinner]
        exact .double hword
      · exact .bare
  · rintro (⟨hword⟩ | ⟨hword⟩ | ⟨hword⟩)
    · rw [unquote?_of_isIdentifier (by decide +kernel) hword,
        unquote?_of_isIdentifier (by decide +kernel) hword]
      exact ⟨hword, rfl⟩
    · rw [unquote?_of_ne (by decide), unquote?_eq_some_iff.mpr rfl]
      exact ⟨hword, rfl⟩
    · rw [unquote?_eq_some_iff.mpr rfl]
      exact ⟨hword, rfl⟩

theorem IsWritten.isIdentifier (h : label.IsWritten written) :
    label.terminator.isIdentifier = true := by
  rcases h with ⟨hword⟩ | ⟨hword⟩ | ⟨hword⟩ <;> exact hword

theorem IsWritten.not_white (h : label.IsWritten written) :
    written ≠ [] ∧ ∀ c ∈ written, isWhiteSpace c = false := by
  have hword : ∀ c ∈ label.terminator, isWhiteSpace c = false := by
    intro c hc
    by_contra hwhite
    rw [Bool.not_eq_false] at hwhite
    exact Text.not_mem_of_isIdentifier (isIdentifierPart_of_isWhiteSpace hwhite) h.isIdentifier hc
  have hquoted : ∀ quote, isWhiteSpace quote = false →
      ∀ c ∈ quote :: (label.terminator ++ [quote]), isWhiteSpace c = false := by
    intro quote hquote c hc
    rw [List.mem_cons, List.mem_append, List.mem_singleton] at hc
    rcases hc with rfl | hc | rfl
    · exact hquote
    · exact hword c hc
    · exact hquote
  rcases h with ⟨hidentifier⟩ | ⟨-⟩ | ⟨-⟩
  · refine ⟨?_, hword⟩
    rintro rfl
    exact absurd hidentifier Bool.false_ne_true
  · exact ⟨List.cons_ne_nil _ _, hquoted _ (by decide)⟩
  · exact ⟨List.cons_ne_nil _ _, hquoted _ (by decide)⟩

/-! ## The opening line -/

/-- The line that opens a heredoc: the opener, the label with spaces around it, and a line feed. -/
def Opens (label : HeredocLabel) (line : Text) : Prop :=
  ∃ before written after : Text, before.all isSpace = true ∧ label.IsWritten written
    ∧ after.all isSpace = true
    ∧ line = heredocOpener ++ (before ++ (written ++ (after ++ ['\n'])))

end HeredocLabel

/-! ## Reading the opening line -/

section Openings

variable {label : HeredocLabel} {written after line text body last : Text} {opened : OpenBlock}

theorem Text.trimEnd_append_takeWhile (text : Text) :
    text.trimEnd ++ (text.reverse.takeWhile isWhiteSpace).reverse = text := by
  rw [Text.trimEnd, ← List.reverse_append, List.takeWhile_append_dropWhile, List.reverse_reverse]

theorem Text.trimEnd_append_white (hwritten : ∀ c ∈ written, isWhiteSpace c = false)
    (hafter : ∀ c ∈ after, isWhiteSpace c = true) : Text.trimEnd (written ++ after) = written := by
  have hdrop : written.reverse.dropWhile isWhiteSpace = written.reverse := by
    rw [List.dropWhile_eq_self_iff]
    intro hpos
    rw [hwritten _ (List.mem_reverse.mp (List.getElem_mem _))]
    exact Bool.false_ne_true
  rw [Text.trimEnd, List.reverse_append, List.dropWhile_append_of_pos, hdrop, List.reverse_reverse]
  intro c hc
  exact hafter c (List.mem_reverse.mp hc)

theorem heredocOpening_of_opens (h : label.Opens line) (rest : Text) :
    ∃ body last, heredocOpening (line ++ rest) = .opened (.heredoc label) body last
      ∧ body ++ last = line := by
  obtain ⟨before, written, after, hbefore, hwritten, hafter, rfl⟩ := h
  obtain ⟨hne, hwhite⟩ := hwritten.not_white
  rw [List.all_eq_true] at hbefore hafter
  have hline : '\n' ∉ written ++ after := by
    rw [List.mem_append, not_or]
    exact ⟨fun hmem ↦ absurd (hwhite _ hmem) (by decide),
      fun hmem ↦ (Text.isSpace_iff.mp (hafter _ hmem)).2 rfl⟩
  have hlabel : HeredocLabel.ofLine? (written ++ after ++ ['\n']) = some label := by
    rw [HeredocLabel.ofLine?, if_pos List.getLast?_concat, List.dropLast_concat,
      Text.trimEnd_append_white hwhite fun c hc ↦ (Text.isSpace_iff.mp (hafter c hc)).1]
    exact HeredocLabel.ofText?_eq_some_iff.mpr hwritten
  -- the spaces end where the label begins
  have hspaces : (before ++ (written ++ after ++ '\n' :: rest)).takeWhile isSpace = before
      ∧ (before ++ (written ++ after ++ '\n' :: rest)).dropWhile isSpace
        = written ++ after ++ '\n' :: rest := by
    obtain ⟨c, others, rfl⟩ := List.exists_cons_of_ne_nil hne
    have hc : ¬isSpace c = true := by
      rw [Text.isSpace_iff, hwhite c List.mem_cons_self]
      exact fun hspace ↦ Bool.false_ne_true hspace.1
    rw [List.takeWhile_append_of_pos hbefore, List.dropWhile_append_of_pos hbefore]
    simp only [List.cons_append]
    rw [List.takeWhile_cons_of_neg hc, List.dropWhile_cons_of_neg hc, List.append_nil]
    exact ⟨rfl, rfl⟩
  have hsplit : (Text.splitLine (written ++ after ++ '\n' :: rest)).1
      = written ++ after ++ ['\n'] := by
    rw [Text.splitLine_append_of_not_mem hline]
    rfl
  refine ⟨heredocOpener ++ before, written ++ after ++ ['\n'], ?_, ?_⟩
  · have htext : heredocOpener ++ (before ++ (written ++ (after ++ ['\n']))) ++ rest
        = heredocOpener ++ (before ++ (written ++ after ++ '\n' :: rest)) := by
      simp only [List.append_assoc, List.singleton_append]
    rw [htext, heredocOpening, Text.afterToken?_append (by decide)]
    dsimp only
    rw [hspaces.1, hspaces.2, hsplit, hlabel]
  · simp only [List.append_assoc]

theorem opens_of_heredocOpening (h : heredocOpening text = .opened opened body last) :
    ∃ label : HeredocLabel, opened = .heredoc label ∧ label.Opens (body ++ last) := by
  obtain ⟨rest, label, -, hlast, hlabel, rfl, rfl⟩ := heredocOpening_eq_opened h
  rw [HeredocLabel.ofLine?, Option.ite_none_right_eq_some] at hlabel
  obtain ⟨hfeed, hwritten⟩ := hlabel
  obtain ⟨front, rfl⟩ := List.getLast?_eq_some_iff.mp hfeed
  have hfront : '\n' ∉ front := by
    have hline := Text.isLine_splitLine (rest.dropWhile isSpace)
    rwa [← hlast, Text.IsLine, List.dropLast_concat] at hline
  rw [List.dropLast_concat] at hwritten
  refine ⟨label, rfl, rest.takeWhile isSpace, Text.trimEnd front,
    (front.reverse.takeWhile isWhiteSpace).reverse, List.all_takeWhile,
    HeredocLabel.ofText?_eq_some_iff.mp hwritten, ?_, ?_⟩
  · rw [List.all_eq_true]
    intro c hc
    rw [List.mem_reverse] at hc
    have hmem : c ∈ front := List.mem_reverse.mp ((List.takeWhile_subset _) hc)
    rw [Text.isSpace_iff]
    exact ⟨List.all_eq_true.mp List.all_takeWhile c hc, fun hfeed ↦ hfront (hfeed ▸ hmem)⟩
  · rw [← List.append_assoc (Text.trimEnd front), Text.trimEnd_append_takeWhile, List.append_assoc]

end Openings

/-! ## The closing line -/

/-- The line that closes a heredoc: its word, perhaps a semicolon, and the end of the line. -/
def HeredocLabel.ClosedBy (label : HeredocLabel) (line : Text) : Prop :=
  ∃ semicolon ∈ ([[], [';']] : List Text), ∃ lineEnd ∈ lineEnds,
    line = label.terminator ++ (semicolon ++ lineEnd)

instance (label : HeredocLabel) (line : Text) : Decidable (label.ClosedBy line) :=
  inferInstanceAs (Decidable (∃ semicolon ∈ _, ∃ lineEnd ∈ _, line = _ ++ (semicolon ++ lineEnd)))

section Closings

variable {label : HeredocLabel} {text body last : Text}

theorem closedBy_of_heredocClose? (hword : '\n' ∉ label.terminator)
    (h : heredocClose? label.terminator text = some (body, last)) :
    label.ClosedBy (Text.splitLine text).1 ∧ body ++ last = (Text.splitLine text).1 := by
  obtain ⟨rest, hrest, hend⟩ := Option.bind_eq_some_iff.mp h
  rw [(Text.afterToken?_eq_some_iff.mp hrest).2, Text.splitLine_append_of_not_mem hword]
  split at hend
  · next after hsemicolon =>
    obtain ⟨hmem, hread⟩ := splitLine_of_lineEnd? hend
    rw [(Text.afterToken?_eq_some_iff.mp hsemicolon).2,
      Text.splitLine_append_of_not_mem (by decide)]
    exact ⟨⟨[';'], List.mem_cons_of_mem _ List.mem_cons_self, _, hmem, rfl⟩, hread⟩
  · obtain ⟨hmem, hread⟩ := splitLine_of_lineEnd? hend
    exact ⟨⟨[], List.mem_cons_self, _, hmem, rfl⟩, hread⟩

theorem not_closedBy_of_heredocClose? (hne : label.terminator ≠ [])
    (hword : '\n' ∉ label.terminator) (h : heredocClose? label.terminator text = none) :
    ¬label.ClosedBy (Text.splitLine text).1 := by
  rintro ⟨semicolon, hsemicolon, lineEnd, hmem, hline⟩
  -- the text begins with the word, and its first line goes on with what follows there
  obtain ⟨rest, rfl⟩ : ∃ rest, text = label.terminator ++ rest := by
    refine ⟨semicolon ++ lineEnd ++ (Text.splitLine text).2, ?_⟩
    rw [← List.append_assoc, ← hline, Text.splitLine_append]
  rw [Text.splitLine_append_of_not_mem hword, List.append_right_inj] at hline
  rw [heredocClose?_append hne] at h
  rw [List.mem_cons, List.mem_singleton] at hsemicolon
  split at h
  · next after hafter =>
    rw [(Text.afterToken?_eq_some_iff.mp hafter).2,
      Text.splitLine_append_of_not_mem (by decide)] at hline
    rcases hsemicolon with rfl | rfl
    · have hhead : ∀ lineEnd ∈ lineEnds, lineEnd.head? ≠ some ';' := by decide
      exact hhead lineEnd hmem (congrArg List.head? hline.symm)
    · rw [List.append_right_inj] at hline
      exact not_mem_lineEnds_of_lineEnd? h (hline ▸ hmem)
  · next hafter =>
    rcases hsemicolon with rfl | rfl
    · exact not_mem_lineEnds_of_lineEnd? h (hline ▸ hmem)
    · rw [← Text.splitLine_append rest, hline, List.append_assoc,
        Text.afterToken?_append (List.cons_ne_nil _ _)] at hafter
      exact absurd hafter (Option.some_ne_none _)

end Closings

/-! ## Reading with a cursor -/

section Cursors

variable {label : HeredocLabel} {line : Text} {cursor : Cursor}

theorem openBlock_heredoc_of_opens (hopens : label.Opens line) (hline : line <+: cursor.rest) :
    ∃ inside, cursor.openBlock .heredoc = (some (.heredoc label), inside)
      ∧ cursor.Passes inside line := by
  obtain ⟨rest, hrest⟩ := hline
  obtain ⟨body, last, hopening, rfl⟩ := heredocOpening_of_opens hopens rest
  have hat : Block.heredoc.openingAt cursor.here = .opened (.heredoc label) body last := by
    rw [hrest] at hopening
    exact hopening
  rw [Cursor.openBlock, hat]
  exact ⟨_, rfl, rfl, rfl, rfl, rest, hrest.symm⟩

theorem opens_of_openBlock_heredoc {opened : OpenBlock}
    (h : (cursor.openBlock .heredoc).1 = some opened) :
    ∃ (label : HeredocLabel) (line : Text), label.Opens line ∧ line <+: cursor.rest := by
  unfold Cursor.openBlock at h
  split at h
  · simp at h
  · next body last hopening =>
    obtain ⟨label, -, hopens⟩ := opens_of_heredocOpening hopening
    obtain ⟨-, rest, hrest⟩ := Block.openingAt_opened hopening
    exact ⟨label, _, hopens, rest, hrest.symm⟩

theorem closeBlock_heredoc (hidentifier : label.terminator.isIdentifier = true)
    (cursor : Cursor) :
    ((cursor.closeBlock (.heredoc label)).1.wellTerminated = true
        ↔ ∃ line ∈ cursor.rest.lines, label.ClosedBy line)
      ∧ ∀ n, IsLeast {n | ∃ line, cursor.rest.lines[n]? = some line ∧ label.ClosedBy line} n →
        cursor.ClosesWith (.heredoc label) (cursor.rest.lines.take n)
          (cursor.rest.lines.take (n + 1)).flatten := by
  have hword : '\n' ∉ label.terminator :=
    Text.not_mem_of_isIdentifier (by decide +kernel) hidentifier
  have hne : label.terminator ≠ [] := by
    intro hnil
    rw [hnil] at hidentifier
    exact Bool.false_ne_true hidentifier
  exact cursor.closeBlock_of_closing_line rfl (closedBy_of_heredocClose? hword)
    (not_closedBy_of_heredocClose? hne hword)

end Cursors

/-- **A heredoc is read by its grammar.** It begins exactly where the unread text begins with an
opening line; then it has the label of that line, and the cursor stands behind it. From there it
closes exactly if one of the lines is a closing line; then its content is the lines before the
first of them, and the cursor stands behind that line. -/
theorem heredoc_reads_its_grammar (cursor : Cursor) :
    ((cursor.openBlock .heredoc).1.isSome = true
        ↔ ∃ (label : HeredocLabel) (line : Text), label.Opens line ∧ line <+: cursor.rest)
      ∧ ∀ (label : HeredocLabel) (line : Text), label.Opens line → line <+: cursor.rest →
        ∃ inside, cursor.openBlock .heredoc = (some (.heredoc label), inside)
          ∧ cursor.Passes inside line
          ∧ ((inside.closeBlock (.heredoc label)).1.wellTerminated = true
            ↔ ∃ line ∈ inside.rest.lines, label.ClosedBy line)
          ∧ ∀ n, IsLeast {n | ∃ line, inside.rest.lines[n]? = some line ∧ label.ClosedBy line} n →
            inside.ClosesWith (.heredoc label) (inside.rest.lines.take n)
              (inside.rest.lines.take (n + 1)).flatten := by
  constructor
  · constructor
    · intro hsome
      obtain ⟨opened, hopened⟩ := Option.isSome_iff_exists.mp hsome
      exact opens_of_openBlock_heredoc hopened
    · rintro ⟨label, line, hopens, hline⟩
      obtain ⟨inside, hinside, -⟩ := openBlock_heredoc_of_opens hopens hline
      rw [hinside]
      rfl
  · intro label line hopens hline
    obtain ⟨inside, hinside, hpasses⟩ := openBlock_heredoc_of_opens hopens hline
    obtain ⟨before, written, after, -, hwritten, -⟩ := hopens
    obtain ⟨hcloses, hfirst⟩ := closeBlock_heredoc hwritten.isIdentifier inside
    exact ⟨inside, hinside, hpasses, hcloses, hfirst⟩

/-- A nowdoc with spaces around its label. A line that goes on behind its word does not close
it. -/
theorem heredoc_reads_its_grammar_nowdoc :
    let cursor : Cursor := Place.cursor ⟨.zero, "<<< 'EOT' \r\nEOT x\nEOT;\r\nrest".toList⟩
    let label : HeredocLabel := ⟨"EOT".toList, .nowdoc⟩
    label.Opens "<<< 'EOT' \r\n".toList
      ∧ ∃ inside, cursor.openBlock .heredoc = (some (.heredoc label), inside)
        ∧ inside.ClosesWith (.heredoc label) ["EOT x\n".toList] "EOT x\nEOT;\r\n".toList := by
  intro cursor label
  have hopens : label.Opens "<<< 'EOT' \r\n".toList :=
    ⟨[' '], "'EOT'".toList, [' ', '\r'], by decide, .single (by decide +kernel), by decide, rfl⟩
  obtain ⟨inside, hinside, hpasses, -, hfirst⟩ :=
    (heredoc_reads_its_grammar cursor).2 label _ hopens (by decide)
  have hrest : inside.rest = "EOT x\nEOT;\r\nrest".toList := hpasses.rest_eq rfl
  have hlines : inside.rest.lines = ["EOT x\n".toList, "EOT;\r\n".toList, "rest".toList] := by
    rw [hrest]
    decide
  rw [hlines] at hfirst
  refine ⟨hopens, inside, hinside, hfirst 1 ⟨⟨_, rfl, by decide⟩, ?_⟩⟩
  rintro n ⟨line, hline, hclosed⟩
  refine Nat.pos_of_ne_zero ?_
  rintro rfl
  obtain rfl := Option.some_inj.mp hline
  exact absurd hclosed (by decide)

end CommentBlocks
