import CommentBlocks.Block.Reading
import Mathlib.Data.List.Basic

/-!
# What a block reads

Each rule for the end of a block goes through the text behind the opener in its own way, with
escapes, doubled quotes, depths or whole lines. They have one thing in common, and it is all that
positions depend on: what is read is the front of that text (`OpenBlock.ending?_eq_some`).

The proofs follow the recursion of each rule. A rule that hands back pieces instead of text, as
`commentPieces` does, is followed through the text that the pieces make up.
-/

namespace CommentBlocks

/-! ## Strings -/

theorem eq_append_of_afterEscape? {escape : Option Text} {text rest : Text}
    (h : afterEscape? escape text = some rest) : text = escape.getD [] ++ rest := by
  obtain ⟨token, rfl, htoken⟩ := Option.bind_eq_some_iff.mp h
  exact (Text.afterToken?_eq_some_iff.mp htoken).2

theorem eq_append_of_stringBody? {closer text body : Text} {escape : Option Text}
    (h : stringBody? closer escape text = some body) : ∃ rest, text = body ++ (closer ++ rest) := by
  fun_induction stringBody? closer escape text generalizing body with
  | case1 => simp at h
  | case2 => simp at h
  | case3 c rest escaped more hescape _ ih =>
    obtain ⟨body, hbody, rfl⟩ := Option.map_eq_some_iff.mp h
    obtain ⟨tail, rfl⟩ := ih hbody
    exact ⟨tail, by rw [eq_append_of_afterEscape? hescape]; simp⟩
  | case4 c rest hescape hclose =>
    obtain ⟨-, tail, htail⟩ := Text.startsWith_iff.mp hclose
    rw [Option.some.injEq] at h
    exact ⟨tail, by rw [htail, ← h, List.nil_append]⟩
  | case5 c rest hescape hclose ih =>
    obtain ⟨body, hbody, rfl⟩ := Option.map_eq_some_iff.mp h
    obtain ⟨tail, rfl⟩ := ih hbody
    exact ⟨tail, rfl⟩

theorem eq_append_of_doubledBody? {quote text body : Text}
    (h : doubledBody? quote text = some body) : ∃ rest, text = body ++ (quote ++ rest) := by
  fun_induction doubledBody? quote text generalizing body with
  | case1 => simp at h
  | case2 c rest hquote ih =>
    obtain ⟨body, hbody, rfl⟩ := Option.map_eq_some_iff.mp h
    obtain ⟨tail, rfl⟩ := ih hbody
    exact ⟨tail, rfl⟩
  | case3 c rest inside hquote hsecond =>
    rw [Option.some.injEq] at h
    exact ⟨inside, by rw [← h, (Text.afterToken?_eq_some_iff.mp hquote).2, List.nil_append]⟩
  | case4 c rest inside hquote more hsecond _ ih =>
    obtain ⟨body, hbody, rfl⟩ := Option.map_eq_some_iff.mp h
    obtain ⟨tail, rfl⟩ := ih hbody
    refine ⟨tail, ?_⟩
    rw [(Text.afterToken?_eq_some_iff.mp hquote).2, (Text.afterToken?_eq_some_iff.mp hsecond).2]
    simp

theorem fenceEnding?_of_mark {mark text after : Text} (h : Text.afterToken? mark text = some after)
    (hblank : (Text.splitLine after).1.isBlank = true) :
    fenceEnding? mark text = some ⟨[], mark, some (Text.splitLine after).1⟩ := by
  cases text with
  | nil => exact absurd (Text.length_lt_of_afterToken? h) (Nat.not_lt_zero _)
  | cons c text =>
    rw [fenceEnding?, h]
    exact if_pos hblank

/-- The place moves on when there is no mark, or when there is one that does not close. -/
theorem fenceEnding?_of_no_mark {mark text : Text} {c : Char}
    (h : ∀ after, Text.afterToken? mark (c :: text) = some after →
      ¬(Text.splitLine after).1.isBlank = true) :
    fenceEnding? mark (c :: text)
      = (fenceEnding? mark text).map fun ending ↦ { ending with body := c :: ending.body } := by
  rw [fenceEnding?]
  split
  · next after hafter => exact if_neg (h after hafter)
  · rfl

theorem fenceEnding?_cons_eq_some {mark text : Text} {c : Char} {ending : Ending}
    (h : fenceEnding? mark (c :: text) = some ending) :
    (∃ after, Text.afterToken? mark (c :: text) = some after
        ∧ (Text.splitLine after).1.isBlank = true
        ∧ ending = ⟨[], mark, some (Text.splitLine after).1⟩)
      ∨ (∀ after, Text.afterToken? mark (c :: text) = some after →
          ¬(Text.splitLine after).1.isBlank = true)
        ∧ ∃ later, fenceEnding? mark text = some later
          ∧ ending = { later with body := c :: later.body } := by
  by_cases hclose : ∃ after, Text.afterToken? mark (c :: text) = some after
      ∧ (Text.splitLine after).1.isBlank = true
  · obtain ⟨after, hafter, hblank⟩ := hclose
    rw [fenceEnding?_of_mark hafter hblank, Option.some.injEq] at h
    exact Or.inl ⟨after, hafter, hblank, h.symm⟩
  · have hopen : ∀ after, Text.afterToken? mark (c :: text) = some after →
        ¬(Text.splitLine after).1.isBlank = true :=
      fun after hafter hblank ↦ hclose ⟨after, hafter, hblank⟩
    rw [fenceEnding?_of_no_mark hopen] at h
    obtain ⟨later, hlater, heq⟩ := Option.map_eq_some_iff.mp h
    exact Or.inr ⟨hopen, later, hlater, heq.symm⟩

theorem eq_append_of_fenceEnding? {mark text : Text} {ending : Ending}
    (h : fenceEnding? mark text = some ending) : ∃ rest, text = ending.read ++ rest := by
  induction text generalizing ending with
  | nil => simp [fenceEnding?] at h
  | cons c text ih =>
    rcases fenceEnding?_cons_eq_some h with ⟨after, hafter, -, rfl⟩ | ⟨-, later, hlater, rfl⟩
    · refine ⟨(Text.splitLine after).2, ?_⟩
      rw [Ending.read, Option.getD_some, List.append_assoc, Text.splitLine_append]
      exact (Text.afterToken?_eq_some_iff.mp hafter).2
    · obtain ⟨rest, hrest⟩ := ih hlater
      exact ⟨rest, by rw [hrest]; rfl⟩

/-! ## Comments -/

@[simp] theorem flatten_prependPiece (text : Text) (pieces : List Text) :
    (prependPiece text pieces).flatten = text ++ pieces.flatten := by
  cases pieces with
  | nil => simp [prependPiece]
  | cons piece pieces => simp [prependPiece]

theorem eq_append_of_commentPieces {inner closer text : Text} {depth : Nat} {pieces : List Text}
    (h : commentPieces inner closer depth text = some pieces) :
    ∃ rest, text = pieces.flatten ++ (closer ++ rest) := by
  fun_induction commentPieces inner closer depth text generalizing pieces with
  | case1 => simp at h
  | case2 c rest after hclose =>
    rw [Option.some.injEq] at h
    refine ⟨after, ?_⟩
    rw [← h, (Text.afterToken?_eq_some_iff.mp hclose).2]
    simp
  | case3 c rest after hclose depth _ ih =>
    obtain ⟨pieces, hpieces, rfl⟩ := Option.map_eq_some_iff.mp h
    obtain ⟨tail, htail⟩ := ih hpieces
    refine ⟨tail, ?_⟩
    rw [flatten_prependPiece, List.append_assoc, ← htail]
    exact (Text.afterToken?_eq_some_iff.mp hclose).2
  | case4 depth c rest hclose after hinner _ ih =>
    obtain ⟨pieces, hpieces, rfl⟩ := Option.map_eq_some_iff.mp h
    obtain ⟨tail, htail⟩ := ih hpieces
    refine ⟨tail, ?_⟩
    rw [flatten_prependPiece, List.append_assoc, ← htail]
    exact (Text.afterToken?_eq_some_iff.mp hinner).2
  | case5 depth c rest hclose hinner ih =>
    obtain ⟨pieces, hpieces, rfl⟩ := Option.map_eq_some_iff.mp h
    obtain ⟨tail, rfl⟩ := ih hpieces
    refine ⟨tail, ?_⟩
    -- a line feed cuts the pieces, but not the text they make up
    split <;> simp

theorem eq_append_of_chainEnding (opener text : Text) :
    ∃ rest, text = (chainEnding opener text).read ++ rest := by
  fun_induction chainEnding opener text with
  | case1 text line next hend =>
    -- the last line of the text: the whole of it is read
    refine ⟨[], ?_⟩
    have hnext : next = [] := List.isEmpty_iff.mp hend
    have hsplit : line ++ next = text := Text.splitLine_append text
    rw [Ending.read, Option.getD_some, List.nil_append, List.append_nil, ← hsplit, hnext,
      List.append_nil]
  | case2 text line next hend hopener =>
    refine ⟨next, ?_⟩
    rw [Ending.read, Option.getD_none, List.append_nil]
    exact (Text.splitLine_append text).symm
  | case3 text line next hend more hopener _ others ih =>
    obtain ⟨tail, htail⟩ := ih
    have hmore : more = others.read ++ tail := htail
    have hnext : next = next.takeWhile isSpace ++ (opener ++ more) := by
      rw [← (Text.afterToken?_eq_some_iff.mp hopener).2, List.takeWhile_append_dropWhile]
    have hsplit : line ++ next = text := Text.splitLine_append text
    refine ⟨tail, ?_⟩
    calc text = line ++ (next.takeWhile isSpace ++ (opener ++ more)) := by rw [← hnext, hsplit]
      _ = line ++ (next.takeWhile isSpace ++ (opener ++ (others.read ++ tail))) := by rw [← hmore]
      _ = _ := by simp [Ending.read]

/-! ## Blocks closed by a whole line -/

theorem lineEnd?_eq_some {body token rest front last : Text}
    (h : lineEnd? body token rest = some (front, last)) :
    rest = [] ∧ front = body ∧ last = token
      ∨ Text.lineBreak? rest = some last ∧ front = body ++ token := by
  unfold lineEnd? at h
  split at h
  · next hend =>
    rw [Option.some.injEq, Prod.mk.injEq] at h
    exact Or.inl ⟨List.isEmpty_iff.mp hend, h.1.symm, h.2.symm⟩
  · obtain ⟨lineBreak, hbreak, heq⟩ := Option.map_eq_some_iff.mp h
    rw [Prod.mk.injEq] at heq
    exact Or.inr ⟨heq.2 ▸ hbreak, heq.1.symm⟩

theorem append_eq_of_lineEnd? {body token rest front last : Text}
    (h : lineEnd? body token rest = some (front, last)) :
    ∃ tail, body ++ (token ++ rest) = front ++ (last ++ tail) := by
  rcases lineEnd?_eq_some h with ⟨rfl, rfl, rfl⟩ | ⟨hbreak, rfl⟩
  · exact ⟨[], rfl⟩
  · obtain ⟨-, tail, rfl⟩ := Text.eq_append_of_lineBreak? hbreak
    exact ⟨tail, (List.append_assoc _ _ _).symm⟩

theorem eq_append_of_anchoredClose? {closer text body last : Text}
    (h : anchoredClose? closer text = some (body, last)) :
    ∃ rest, text = body ++ (last ++ rest) := by
  obtain ⟨rest, hrest, hend⟩ := Option.bind_eq_some_iff.mp h
  obtain ⟨tail, htail⟩ := append_eq_of_lineEnd? hend
  exact ⟨tail, by rw [(Text.afterToken?_eq_some_iff.mp hrest).2, ← htail, List.nil_append]⟩

theorem eq_append_of_heredocClose? {terminator text body last : Text}
    (h : heredocClose? terminator text = some (body, last)) :
    ∃ rest, text = body ++ (last ++ rest) := by
  obtain ⟨rest, hrest, hend⟩ := Option.bind_eq_some_iff.mp h
  rw [(Text.afterToken?_eq_some_iff.mp hrest).2]
  split at hend
  · next after hsemicolon =>
    rw [(Text.afterToken?_eq_some_iff.mp hsemicolon).2]
    exact append_eq_of_lineEnd? hend
  · exact append_eq_of_lineEnd? hend

theorem eq_append_of_linesEnding? {close? : Text → Option (Text × Text)}
    (hclose : ∀ {text body last}, close? text = some (body, last) →
      ∃ rest, text = body ++ (last ++ rest))
    {text : Text} {ending : Ending} (h : linesEnding? close? text = some ending) :
    ∃ rest, text = ending.read ++ rest := by
  fun_induction linesEnding? close? text generalizing ending with
  | case1 => simp at h
  | case2 c rest body last hhere =>
    obtain ⟨tail, htail⟩ := hclose hhere
    rw [Option.some.injEq] at h
    exact ⟨tail, by rw [htail, ← h, Ending.read, Option.getD_some, List.append_assoc]⟩
  | case3 c rest hhere _ line =>
    rename_i ih
    obtain ⟨later, hlater, rfl⟩ := Option.map_eq_some_iff.mp h
    obtain ⟨tail, htail⟩ := ih hlater
    refine ⟨tail, ?_⟩
    calc c :: rest = line ++ (Text.splitLine (c :: rest)).2 :=
          (Text.splitLine_append (c :: rest)).symm
      _ = line ++ (later.read ++ tail) := by rw [← htail]
      _ = _ := by simp [Ending.read]

/-! ## All kinds -/

theorem eq_append_of_commentEnding? {inner closer text : Text} {margin : Option Text}
    {ending : Ending} (h : commentEnding? inner closer margin text = some ending) :
    ∃ rest, text = ending.read ++ rest := by
  obtain ⟨pieces, hpieces, rfl⟩ := Option.map_eq_some_iff.mp h
  obtain ⟨rest, hrest⟩ := eq_append_of_commentPieces hpieces
  exact ⟨rest, by rw [hrest, Ending.read, Option.getD_some, List.append_assoc]⟩

theorem read_closedBy (token body : Text) : (Ending.closedBy token body).read = body ++ token := rfl

/-- **What a block reads is the front of the text behind its opener.** -/
theorem OpenBlock.ending?_eq_some {block : OpenBlock} {text : Text} {ending : Ending}
    (h : block.ending? text = some ending) : ∃ rest, text = ending.read ++ rest := by
  cases block with
  | heredoc label => exact eq_append_of_linesEnding? eq_append_of_heredocClose? h
  | delimited form =>
    cases form with
    | string opener closer escape =>
      obtain ⟨body, hbody, rfl⟩ := Option.map_eq_some_iff.mp h
      obtain ⟨rest, hrest⟩ := eq_append_of_stringBody? hbody
      exact ⟨rest, by rw [hrest, read_closedBy, List.append_assoc]⟩
    | line opener =>
      obtain ⟨rest, hrest⟩ := eq_append_of_chainEnding opener text
      rw [OpenBlock.ending?, Delimited.ending?, Option.some.injEq] at h
      exact ⟨rest, by rw [← h]; exact hrest⟩
    | comment opener closer margin => exact eq_append_of_commentEnding? h
    | doubled quote =>
      obtain ⟨body, hbody, rfl⟩ := Option.map_eq_some_iff.mp h
      obtain ⟨rest, hrest⟩ := eq_append_of_doubledBody? hbody
      exact ⟨rest, by rw [hrest, read_closedBy, List.append_assoc]⟩
    | anchored opener closer => exact eq_append_of_linesEnding? eq_append_of_anchoredClose? h
    | nested opener closer margin => exact eq_append_of_commentEnding? h
    | fence mark => exact eq_append_of_fenceEnding? h
    | raw openers quote =>
      obtain ⟨body, hbody, rfl⟩ := Option.map_eq_some_iff.mp h
      obtain ⟨rest, hrest⟩ := eq_append_of_doubledBody? hbody
      exact ⟨rest, by rw [hrest, read_closedBy, List.append_assoc]⟩

end CommentBlocks
