import CommentBlocks.Block.Basic
import CommentBlocks.Block.Margin

/-!
# Where blocks end

Each kind of block has its own rule for where it closes. The rules are functions of the text behind
the opener and of nothing else; they give the text that belongs to the block, or have no answer when
the text runs out first.

## The shape of an ending

An `Ending` is the text read up to and including the end of the block, in two parts: all that was
read before the last step, and the last step, which a rollback would take back. A run of line
comments that stops before a line of code has no last step, because it looked ahead and returned.
Content lines keep their line feeds. Strings have no content of interest, so most of them give no
lines; heredocs give theirs.

## One reader for comments

A comment that does not nest is a nesting comment whose inner opener is empty: an empty token never
matches, so the depth stays what it was. `commentPieces` therefore serves both.
-/

namespace CommentBlocks

/-- The text of a block behind its opener, when the block closes. -/
structure Ending where
  /-- The content, line by line. -/
  lines : List Text
  /-- The text read before the last step. -/
  body : Text
  /-- The text of the last step, if there is one to undo. -/
  last : Option Text
deriving DecidableEq

namespace Ending

def read (ending : Ending) : Text := ending.body ++ ending.last.getD []

/-- An ending of a block without content lines: some text, then the token that closes the block. -/
def closedBy (token body : Text) : Ending := ⟨[], body, some token⟩

end Ending

/-! ## Strings -/

/-- What follows the escape token when `text` starts with it; nothing if there is no such token. -/
def afterEscape? (escape : Option Text) (text : Text) : Option Text :=
  escape.bind fun token ↦ Text.afterToken? token text

theorem length_lt_of_afterEscape? {escape : Option Text} {text rest : Text}
    (h : afterEscape? escape text = some rest) : rest.length < text.length := by
  obtain ⟨token, -, htoken⟩ := Option.bind_eq_some_iff.mp h
  exact Text.length_lt_of_afterToken? htoken

/-- The text before the end token of a string. The character behind an escape is never looked at,
and an escape is tried before the end token. -/
def stringBody? (closer : Text) (escape : Option Text) (text : Text) : Option Text :=
  match text with
  | [] => none
  | c :: rest =>
    match h : afterEscape? escape (c :: rest) with
    | some [] => none
    | some (escaped :: more) =>
      have : more.length + 1 < rest.length + 1 := length_lt_of_afterEscape? h
      (stringBody? closer escape more).map fun body ↦ escape.getD [] ++ escaped :: body
    | none =>
      if Text.startsWith closer (c :: rest) then some []
      else (stringBody? closer escape rest).map (c :: ·)
termination_by text.length
decreasing_by all_goals simp only [List.length_cons]; omega

/-- The text before the closing quote of a string in which a quote is written twice. -/
def doubledBody? (quote : Text) (text : Text) : Option Text :=
  match text with
  | [] => none
  | c :: rest =>
    match h : Text.afterToken? quote (c :: rest) with
    | none => (doubledBody? quote rest).map (c :: ·)
    | some inside =>
      match h' : Text.afterToken? quote inside with
      | none => some []
      | some more =>
        have : more.length < rest.length + 1 :=
          Nat.lt_trans (Text.length_lt_of_afterToken? h') (Text.length_lt_of_afterToken? h)
        (doubledBody? quote more).map fun body ↦ quote ++ (quote ++ body)
termination_by text.length

/-- The end of a fenced string: the text through the first mark that only white space follows on its
line, and the rest of that line. A mark that does not close is passed over by one character. -/
def fenceEnding? (mark : Text) : Text → Option Ending
  | [] => none
  | c :: rest =>
    match Text.afterToken? mark (c :: rest) with
    | some after =>
      if (Text.splitLine after).1.isBlank then some ⟨[], mark, some (Text.splitLine after).1⟩
      else (fenceEnding? mark rest).map fun ending ↦ { ending with body := c :: ending.body }
    | none => (fenceEnding? mark rest).map fun ending ↦ { ending with body := c :: ending.body }

/-! ## Comments with an end token -/

/-- Put `text` in front of the first piece. -/
def prependPiece (text : Text) : List Text → List Text
  | [] => [text]
  | piece :: pieces => (text ++ piece) :: pieces

/-- The text before the end token of a comment, cut behind its line feeds; the last piece may be
empty. `depth` inner comments are open, and each end token closes one of them first. The end token
is tried before the inner opener, and a line feed inside a token does not cut. -/
def commentPieces (inner closer : Text) (depth : Nat) (text : Text) : Option (List Text) :=
  match text with
  | [] => none
  | c :: rest =>
    match hc : Text.afterToken? closer (c :: rest) with
    | some after =>
      match depth with
      | 0 => some [[]]
      | depth + 1 =>
        have : after.length < rest.length + 1 := Text.length_lt_of_afterToken? hc
        (commentPieces inner closer depth after).map (prependPiece closer)
    | none =>
      match hi : Text.afterToken? inner (c :: rest) with
      | some after =>
        have : after.length < rest.length + 1 := Text.length_lt_of_afterToken? hi
        (commentPieces inner closer (depth + 1) after).map (prependPiece inner)
      | none =>
        (commentPieces inner closer depth rest).map fun pieces ↦
          if c = '\n' then [c] :: pieces else prependPiece [c] pieces
termination_by text.length

/-- The end of a comment. An empty last piece is no line. -/
def commentEnding? (inner closer : Text) (margin : Option Text) (text : Text) : Option Ending :=
  (commentPieces inner closer 0 text).map fun pieces ↦
    let lines := if pieces.getLast? = some [] then pieces.dropLast else pieces
    ⟨lines.map (Text.dropMargin margin), pieces.flatten, some closer⟩

/-! ## Line comments -/

/-- The lines of a run of line comments, each without its opener, and the end of the run. The run
goes on while the next line, after indentation, begins with `opener`; at the end of the text its
last line needs no line feed. -/
def chainEnding (opener : Text) (text : Text) : Ending :=
  let line := (Text.splitLine text).1
  let next := (Text.splitLine text).2
  if next.isEmpty then ⟨[line], [], some line⟩
  else
    match h : Text.afterToken? opener (next.dropWhile isSpace) with
    | none => ⟨[line], line, none⟩
    | some more =>
      have : more.length < text.length := by
        have hmore := Text.length_lt_of_afterToken? h
        have hdrop : (next.dropWhile isSpace).length ≤ next.length :=
          (List.dropWhile_suffix _).length_le
        have hnext : next.length ≤ text.length := Text.length_splitLine_le text
        omega
      let others := chainEnding opener more
      ⟨line :: others.lines, line ++ (next.takeWhile isSpace ++ (opener ++ others.body)),
        others.last⟩
termination_by text.length

/-! ## Blocks closed by a whole line -/

/-- The rest of a closing line: nothing at the end of the text, or a line break. `token` is what was
read of the line in the last step before, and `body` what was read before that. -/
def lineEnd? (body token rest : Text) : Option (Text × Text) :=
  if rest.isEmpty then some (body, token)
  else (Text.lineBreak? rest).map fun lineBreak ↦ (body ++ token, lineBreak)

/-- A line that is `closer` and no more, at the front of `text`. -/
def anchoredClose? (closer text : Text) : Option (Text × Text) :=
  (Text.afterToken? closer text).bind (lineEnd? [] closer)

/-- A line that is `terminator` and perhaps a semicolon, at the front of `text`. -/
def heredocClose? (terminator text : Text) : Option (Text × Text) :=
  (Text.afterToken? terminator text).bind fun rest ↦
    match Text.afterToken? [';'] rest with
    | some after => lineEnd? terminator [';'] after
    | none => lineEnd? [] terminator rest

/-- The lines before the first one that `close?` accepts, and that line. -/
def linesEnding? (close? : Text → Option (Text × Text)) (text : Text) : Option Ending :=
  match text with
  | [] => none
  | c :: rest =>
    match close? (c :: rest) with
    | some (body, last) => some ⟨[], body, some last⟩
    | none =>
      have : (Text.splitLine (c :: rest)).2.length < rest.length + 1 :=
        Text.length_splitLine_lt c rest
      let line := (Text.splitLine (c :: rest)).1
      (linesEnding? close? (Text.splitLine (c :: rest)).2).map fun ending ↦
        { ending with lines := line :: ending.lines, body := line ++ ending.body }
termination_by text.length

/-! ## All kinds -/

/-- The end of a delimited block in the text behind its opener. -/
def Delimited.ending? (text : Text) : Delimited → Option Ending
  | .string _ closer escape => (stringBody? closer escape text).map (Ending.closedBy closer)
  | .line opener =>
    let ending := chainEnding opener text
    some { ending with lines := ending.lines.map (Text.dropMark opener) }
  | .comment _ closer margin => commentEnding? [] closer margin text
  | .doubled quote => (doubledBody? quote text).map (Ending.closedBy quote)
  | .anchored _ closer => linesEnding? (anchoredClose? closer) text
  | .nested opener closer margin => commentEnding? opener closer margin text
  | .fence mark => fenceEnding? mark text
  | .raw _ quote => (doubledBody? quote text).map (Ending.closedBy quote)

/-- The end of an opened block in the text behind its opener. -/
def OpenBlock.ending? (text : Text) : OpenBlock → Option Ending
  | .delimited form => form.ending? text
  | .heredoc label => linesEnding? (heredocClose? label.terminator) text

end CommentBlocks
