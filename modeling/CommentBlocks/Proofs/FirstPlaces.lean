import CommentBlocks.Proofs.BlockContract
import Mathlib.Order.Bounds.Basic

/-!
# Blocks that end at a first place

The rule for the end of a block is a way of reading: it passes over escapes, pairs quotes, counts
depths or takes line after line, and somewhere it stops. What its user wants to know is the place:
the first end token that is not escaped, the first run of quotes of odd length, the first line that
is the terminator. Here is what such statements share.

`Finds` says of the answer of a search that it is told by the least number with some property, or
that no number has it. A search that passes over a part of its input is followed by `Finds.later`,
and one that stops by `Finds.here`. `Finds.next` and `Finds.first` are these steps at the number
`0`. A block whose rule finds its end in this sense closes exactly if there is such a place, and
closes there (`Cursor.closeBlock_of_finds`).

The places of some blocks are lines. `Text.lines` cuts a text behind its line feeds, and
`finds_linesEnding?` is the search for a line that all blocks of this kind share.
-/

namespace CommentBlocks

/-! ## Searches -/

/-- The answer of a search for the least number with the property `place`: there is none, or the
answer `tells` of that number. -/
def Finds {α : Type} (place : Nat → Prop) (tells : Nat → α → Prop) : Option α → Prop
  | none => ∀ n, ¬place n
  | some answer => ∃ n, IsLeast {n | place n} n ∧ tells n answer

namespace Finds

variable {α β : Type} {place : Nat → Prop} {tells : Nat → α → Prop} {result : Option α}

theorem isLeast {n : Nat} (hplace : place n) (hlow : ∀ i < n, ¬place i) :
    IsLeast {n | place n} n := by
  refine ⟨hplace, ?_⟩
  intro i hi
  exact Nat.le_of_not_lt fun hless ↦ hlow i hless hi

/-- The search stops at a place that has none before it. -/
theorem here {n : Nat} {answer : α} (hplace : place n) (hlow : ∀ i < n, ¬place i)
    (htells : tells n answer) : Finds place tells (some answer) :=
  ⟨n, isLeast hplace hlow, htells⟩

theorem first {answer : α} (hplace : place 0) (htells : tells 0 answer) :
    Finds place tells (some answer) :=
  here hplace (fun i hi ↦ absurd hi (Nat.not_lt_zero i)) htells

/-- The search passes over `width` numbers that are no places. -/
theorem later {later : Nat → β → Prop} {f : α → β} (width : Nat)
    (h : Finds (fun n ↦ place (n + width)) tells result) (hlow : ∀ i < width, ¬place i)
    (htells : ∀ n answer, tells n answer → later (n + width) (f answer)) :
    Finds place later (result.map f) := by
  have hsplit : ∀ n, place n → ∃ i, n = i + width ∧ place (i + width) := by
    intro n hn
    have hle : width ≤ n := Nat.le_of_not_lt fun hless ↦ hlow n hless hn
    refine ⟨n - width, (Nat.sub_add_cancel hle).symm, ?_⟩
    rwa [Nat.sub_add_cancel hle]
  cases result with
  | none =>
    intro n hn
    obtain ⟨i, -, hi⟩ := hsplit n hn
    exact h i hi
  | some answer =>
    obtain ⟨n, ⟨hn, hleast⟩, htold⟩ := h
    refine ⟨n + width, ⟨hn, ?_⟩, htells n answer htold⟩
    intro m hm
    obtain ⟨i, rfl, hi⟩ := hsplit m hm
    exact Nat.add_le_add_right (hleast hi) width

theorem next {later : Nat → β → Prop} {f : α → β}
    (h : Finds (fun n ↦ place (n + 1)) tells result) (hzero : ¬place 0)
    (htells : ∀ n answer, tells n answer → later (n + 1) (f answer)) :
    Finds place later (result.map f) := by
  refine .later 1 h ?_ htells
  intro i hi
  rwa [Nat.lt_one_iff.mp hi]

theorem map {other : Nat → β → Prop} {f : α → β} (h : Finds place tells result)
    (htells : ∀ n answer, tells n answer → other n (f answer)) :
    Finds place other (result.map f) :=
  later 0 h (fun _ hless ↦ absurd hless (Nat.not_lt_zero _)) htells

theorem congr {same : Nat → Prop} (h : Finds place tells result)
    (hsame : ∀ n, same n ↔ place n) : Finds same tells result := by
  obtain rfl : same = place := funext fun n ↦ propext (hsame n)
  exact h

theorem isSome_iff (h : Finds place tells result) : result.isSome = true ↔ ∃ n, place n := by
  cases result with
  | none =>
    constructor
    · exact fun hsome ↦ absurd hsome Bool.noConfusion
    · rintro ⟨n, hn⟩
      exact absurd hn (h n)
  | some answer =>
    obtain ⟨n, hleast, -⟩ := h
    exact ⟨fun _ ↦ ⟨n, hleast.1⟩, fun _ ↦ rfl⟩

theorem exists_answer (h : Finds place tells result) {n : Nat} (hn : IsLeast {n | place n} n) :
    ∃ answer, result = some answer ∧ tells n answer := by
  cases result with
  | none => exact absurd hn.1 (h n)
  | some answer =>
    obtain ⟨m, hm, htells⟩ := h
    exact ⟨answer, rfl, hn.unique hm ▸ htells⟩

end Finds

/-! ## Closing -/

namespace Cursor

variable {cursor : Cursor} {opened : OpenBlock} {lines : Nat → List Text} {read : Nat → Text}
  {place : Nat → Prop}

/-- The block closes: it has the content `lines`, and the text up to its end is `read`. -/
def ClosesWith (cursor : Cursor) (opened : OpenBlock) (lines : List Text) (read : Text) : Prop :=
  (cursor.closeBlock opened).1 = ⟨lines, true⟩ ∧ cursor.Passes (cursor.closeBlock opened).2 read

theorem closesWith_of_ending? {ending : Ending} (h : opened.ending? cursor.rest = some ending) :
    cursor.ClosesWith opened ending.lines ending.read := by
  rw [ClosesWith, closeBlock, h]
  exact ⟨rfl, rfl, rfl, rfl, OpenBlock.ending?_eq_some h⟩

theorem wellTerminated_closeBlock (cursor : Cursor) (opened : OpenBlock) :
    (cursor.closeBlock opened).1.wellTerminated = (opened.ending? cursor.rest).isSome := by
  rw [closeBlock]
  cases opened.ending? cursor.rest <;> rfl

/-- **A block whose rule searches for a place closes if there is one**, and then at the first. -/
theorem closeBlock_of_finds
    (h : Finds place (fun n ending ↦ ending.lines = lines n ∧ ending.read = read n)
      (opened.ending? cursor.rest)) :
    ((cursor.closeBlock opened).1.wellTerminated = true ↔ ∃ n, place n)
      ∧ ∀ n, IsLeast {n | place n} n → cursor.ClosesWith opened (lines n) (read n) := by
  rw [wellTerminated_closeBlock]
  refine ⟨h.isSome_iff, ?_⟩
  intro n hn
  obtain ⟨ending, hending, hlines, hread⟩ := h.exists_answer hn
  rw [← hlines, ← hread]
  exact closesWith_of_ending? hending

end Cursor

/-! ## Lines -/

namespace Text

variable {text token line : Text}

/-- The lines of a text, each with its line feed. The last may have none, and is not empty. -/
def lines : Text → List Text
  | [] => []
  | c :: rest => if c = '\n' then [c] :: lines rest else prependPiece [c] (lines rest)

@[simp] theorem lines_nil : lines [] = [] := rfl

@[simp] theorem lines_feed (rest : Text) : lines ('\n' :: rest) = ['\n'] :: lines rest := rfl

theorem lines_cons {c : Char} (hc : c ≠ '\n') (rest : Text) :
    lines (c :: rest) = prependPiece [c] (lines rest) :=
  if_neg hc

@[simp] theorem flatten_lines (text : Text) : text.lines.flatten = text := by
  induction text with
  | nil => rfl
  | cons c rest ih =>
    rw [lines]
    split
    · rw [List.flatten_cons, ih, List.singleton_append]
    · rw [flatten_prependPiece, ih, List.singleton_append]

theorem lines_of_ne_nil (h : text ≠ []) :
    text.lines = (splitLine text).1 :: (splitLine text).2.lines := by
  induction text with
  | nil => exact absurd rfl h
  | cons c rest ih =>
    rw [lines, splitLine]
    split
    · rfl
    · by_cases hrest : rest = []
      · rw [hrest]
        rfl
      · rw [ih hrest]
        rfl

theorem splitLine_append_of_not_mem (htoken : '\n' ∉ token) (rest : Text) :
    splitLine (token ++ rest) = (token ++ (splitLine rest).1, (splitLine rest).2) := by
  induction token with
  | nil => rfl
  | cons c token ih =>
    rw [List.mem_cons, not_or] at htoken
    rw [List.cons_append, splitLine, if_neg (Ne.symm htoken.1), ih htoken.2]
    rfl

theorem lines_append (hne : token ≠ []) (hfeed : '\n' ∉ token) (rest : Text) :
    lines (token ++ rest) = prependPiece token (lines rest) := by
  induction token with
  | nil => exact absurd rfl hne
  | cons c token ih =>
    rw [List.mem_cons, not_or] at hfeed
    rw [List.cons_append, lines_cons (Ne.symm hfeed.1)]
    by_cases htoken : token = []
    · rw [htoken, List.nil_append]
    · rw [ih htoken hfeed.2, prependPiece_prependPiece]
      rfl

theorem lineBreak?_eq_some_iff {lineBreak : Text} :
    lineBreak? text = some lineBreak
      ↔ (splitLine text).1 = lineBreak ∧ lineBreak ∈ [['\n'], ['\r', '\n']] := by
  constructor
  · intro h
    unfold lineBreak? at h
    split at h
    · next hn =>
      obtain ⟨-, rest, rfl⟩ := startsWith_iff.mp hn
      obtain rfl := Option.some_inj.mp h
      exact ⟨rfl, List.mem_cons_self⟩
    · split at h
      · next hrn =>
        obtain ⟨-, rest, rfl⟩ := startsWith_iff.mp hrn
        obtain rfl := Option.some_inj.mp h
        exact ⟨rfl, List.mem_cons_of_mem _ List.mem_cons_self⟩
      · simp at h
  · rintro ⟨hline, hbreak⟩
    have htext := splitLine_append text
    rw [hline] at htext
    rw [List.mem_cons, List.mem_singleton] at hbreak
    rcases hbreak with rfl | rfl
    · rw [← htext]
      rfl
    · rw [← htext]
      rfl

end Text

/-! ## Blocks closed by a whole line -/

/-- The ways for a line to end: with the text, or with a line break. -/
def lineEnds : List Text := [[], ['\n'], ['\r', '\n']]

section ClosingLines

variable {body token rest front last text : Text} {close? : Text → Option (Text × Text)}
  {closes : Text → Prop}

theorem splitLine_of_lineEnd? (h : lineEnd? body token rest = some (front, last)) :
    (Text.splitLine rest).1 ∈ lineEnds
      ∧ front ++ last = body ++ (token ++ (Text.splitLine rest).1) := by
  rcases lineEnd?_eq_some h with ⟨rfl, rfl, rfl⟩ | ⟨hbreak, rfl⟩
  · refine ⟨List.mem_cons_self, ?_⟩
    rw [Text.splitLine, List.append_nil]
  · obtain ⟨rfl, hmem⟩ := Text.lineBreak?_eq_some_iff.mp hbreak
    exact ⟨List.mem_cons_of_mem _ hmem, List.append_assoc _ _ _⟩

theorem exists_lineEnd?_eq_some (body token : Text) (h : (Text.splitLine rest).1 ∈ lineEnds) :
    ∃ found, lineEnd? body token rest = some found := by
  by_cases hrest : rest = []
  · exact ⟨(body, token), if_pos (List.isEmpty_iff.mpr hrest)⟩
  · have hfirst : (Text.splitLine rest).1 ≠ [] := by
      obtain ⟨c, more, rfl⟩ := List.exists_cons_of_ne_nil hrest
      rw [Text.splitLine]
      split <;> exact List.cons_ne_nil _ _
    have hbreak := Text.lineBreak?_eq_some_iff.mpr ⟨rfl, (List.mem_cons.mp h).resolve_left hfirst⟩
    refine ⟨(body ++ token, (Text.splitLine rest).1), ?_⟩
    rw [lineEnd?, if_neg (fun hempty ↦ hrest (List.isEmpty_iff.mp hempty)), hbreak, Option.map_some]

theorem not_mem_lineEnds_of_lineEnd? (h : lineEnd? body token rest = none) :
    (Text.splitLine rest).1 ∉ lineEnds := by
  intro hmem
  obtain ⟨found, hfound⟩ := exists_lineEnd?_eq_some body token hmem
  rw [hfound] at h
  exact absurd h (Option.some_ne_none _)

/-- **A block that is closed by a line is read up to the first such line**, if the test for that
line sees its text and nothing else. -/
theorem finds_linesEnding?
    (hyes : ∀ {text body last}, close? text = some (body, last) →
      closes (Text.splitLine text).1 ∧ body ++ last = (Text.splitLine text).1)
    (hno : ∀ {text}, close? text = none → ¬closes (Text.splitLine text).1) (text : Text) :
    Finds (fun n ↦ ∃ line, text.lines[n]? = some line ∧ closes line)
      (fun n ending ↦ ending.lines = text.lines.take n
        ∧ ending.read = (text.lines.take (n + 1)).flatten)
      (linesEnding? close? text) := by
  fun_induction linesEnding? close? text with
  | case1 =>
    rintro n ⟨line, hline, -⟩
    simp at hline
  | case2 c rest body last hhere =>
    obtain ⟨hcloses, hread⟩ := hyes hhere
    rw [Text.lines_of_ne_nil (List.cons_ne_nil c rest)]
    refine .first ⟨_, rfl, hcloses⟩ ⟨rfl, ?_⟩
    simpa [Ending.read] using hread
  | case3 c rest hhere _ line =>
    rename_i ih
    rw [Text.lines_of_ne_nil (List.cons_ne_nil c rest)]
    refine .next ih ?_ ?_
    · rintro ⟨first, hfirst, hcloses⟩
      obtain rfl := Option.some_inj.mp hfirst
      exact hno hhere hcloses
    · rintro n ending ⟨hlines, hread⟩
      refine ⟨congrArg (line :: ·) hlines, ?_⟩
      rw [List.take_succ_cons, List.flatten_cons, ← hread]
      exact List.append_assoc _ _ _

/-- A block that is closed by a line closes if one of the lines is such a line; its content is the
lines before the first of them. -/
theorem Cursor.closeBlock_of_closing_line {opened : OpenBlock} (cursor : Cursor)
    (hending : opened.ending? cursor.rest = linesEnding? close? cursor.rest)
    (hyes : ∀ {text body last}, close? text = some (body, last) →
      closes (Text.splitLine text).1 ∧ body ++ last = (Text.splitLine text).1)
    (hno : ∀ {text}, close? text = none → ¬closes (Text.splitLine text).1) :
    ((cursor.closeBlock opened).1.wellTerminated = true ↔ ∃ line ∈ cursor.rest.lines, closes line)
      ∧ ∀ n, IsLeast {n | ∃ line, cursor.rest.lines[n]? = some line ∧ closes line} n →
        cursor.ClosesWith opened (cursor.rest.lines.take n)
          (cursor.rest.lines.take (n + 1)).flatten := by
  have hfinds := finds_linesEnding? hyes hno cursor.rest
  rw [← hending] at hfinds
  obtain ⟨hcloses, hfirst⟩ := closeBlock_of_finds hfinds
  refine ⟨hcloses.trans ?_, hfirst⟩
  constructor
  · rintro ⟨n, line, hline, hclosed⟩
    exact ⟨line, List.mem_of_getElem? hline, hclosed⟩
  · rintro ⟨line, hmem, hclosed⟩
    obtain ⟨n, hline⟩ := List.mem_iff_getElem?.mp hmem
    exact ⟨n, line, hline, hclosed⟩

end ClosingLines

end CommentBlocks
