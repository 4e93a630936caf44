import CommentBlocks.Text.Basic
import CommentBlocks.Text.Utf16

/-!
# The tokens of JSON

Configuration is written in JSON. A JSON text is first cut into tokens: punctuation, strings, and
*words*, which are the longest runs of letters, digits, signs and dots. A word is one of the three
literals or a number, or it is an error; nothing but punctuation and white space may follow a word,
so taking the longest run loses nothing.

## Numbers

Configuration holds natural numbers only. A number in its plainest form, digits without a needless
zero in front, is read as a value; every other number is told apart from an error and no more.

## Strings

An escape may name half of a surrogate pair, so a string is a sequence of UTF-16 units before it is
text. Where the units do not pair up the string has no text, which is an error only for a reader
that needs it.
-/

namespace CommentBlocks

namespace Json

/-- A piece of a JSON text. -/
inductive Token where
  | leftBrace
  | rightBrace
  | leftBracket
  | rightBracket
  | colon
  | comma
  | null
  | bool (value : Bool)
  /-- A number written with digits only. -/
  | natural (value : Nat)
  /-- A number with a sign, a fraction or an exponent. -/
  | number
  /-- A string, and its text if it has one. -/
  | string (text : Option Text)
deriving DecidableEq

/-! ## Words -/

def isDigit (c : Char) : Bool := '0' ≤ c && c ≤ '9'

/-- A character of a literal or a number. -/
def isWordChar (c : Char) : Bool :=
  isDigit c || ('a' ≤ c && c ≤ 'z') || ('A' ≤ c && c ≤ 'Z') || c == '+' || c == '-' || c == '.'

/-- Digits that make an integer: at least one, and no zero in front of others. -/
def isInteger (digits : Text) : Bool :=
  digits ≠ [] && digits.all isDigit && (digits.head? ≠ some '0' || digits.length == 1)

/-- The number that decimal digits stand for. -/
def valueOfDigits (digits : Text) : Nat :=
  digits.foldl (fun value c ↦ 10 * value + (c.toNat - '0'.toNat)) 0

/-- The part of a number from its exponent on. -/
def isExponent : Text → Bool
  | [] => true
  | mark :: rest =>
    let digits := if rest.head? = some '+' || rest.head? = some '-' then rest.drop 1 else rest
    (mark == 'e' || mark == 'E') && digits ≠ [] && digits.all isDigit

/-- The part of a number from its fraction on. -/
def isFraction (text : Text) : Bool :=
  if text.head? = some '.' then
    (text.drop 1).takeWhile isDigit ≠ [] && isExponent ((text.drop 1).dropWhile isDigit)
  else isExponent text

def isNumber (word : Text) : Bool :=
  let unsigned := if word.head? = some '-' then word.drop 1 else word
  isInteger (unsigned.takeWhile isDigit) && isFraction (unsigned.dropWhile isDigit)

/-- The token that a word is. -/
def wordToken? (word : Text) : Option Token :=
  if word = "null".toList then some .null
  else if word = "true".toList then some (.bool true)
  else if word = "false".toList then some (.bool false)
  else if isInteger word then some (.natural (valueOfDigits word))
  else if isNumber word then some .number
  else none

/-! ## Strings -/

def hexValue? (c : Char) : Option Nat :=
  if isDigit c then some (c.toNat - '0'.toNat)
  else if 'a' ≤ c && c ≤ 'f' then some (c.toNat - 'a'.toNat + 10)
  else if 'A' ≤ c && c ≤ 'F' then some (c.toNat - 'A'.toNat + 10)
  else none

/-- The unit that four hexadecimal digits stand for. -/
def hexUnit? (digits : Text) : Option Nat :=
  digits.foldl
    (fun value c ↦ value.bind fun value ↦ (hexValue? c).map fun digit ↦ 16 * value + digit) (some 0)

/-- The character that a backslash and a letter stand for. -/
def escaped? (letter : Char) : Option Char :=
  match letter with
  | '"' => some '"'
  | '\\' => some '\\'
  | '/' => some '/'
  | 'b' => some '\x08'
  | 'f' => some '\x0c'
  | 'n' => some '\n'
  | 'r' => some '\r'
  | 't' => some '\t'
  | _ => none

/-- The units of a string up to its closing quote, and what follows it. -/
def stringUnits? : Text → Option (List Nat × Text)
  | [] => none
  | '"' :: rest => some ([], rest)
  | '\\' :: 'u' :: a :: b :: c :: d :: rest =>
    match hexUnit? [a, b, c, d] with
    | some unit => (stringUnits? rest).map fun (units, rest) ↦ (unit :: units, rest)
    | none => none
  | '\\' :: letter :: rest =>
    match escaped? letter with
    | some c => (stringUnits? rest).map fun (units, rest) ↦ (c.toNat :: units, rest)
    | none => none
  | c :: rest =>
    if c.toNat < 0x20 || c = '\\' then none
    else (stringUnits? rest).map fun (units, rest) ↦ (Utf16.encodeChar c ++ units, rest)

/-- The text of UTF-16 units, if they pair up. -/
def textOfUnits? (units : List Nat) : Option Text :=
  let decoded := Utf16.decode units
  if decoded.rest.isEmpty then some decoded.text else none

theorem length_lt_of_stringUnits? {text rest : Text} {units : List Nat}
    (h : stringUnits? text = some (units, rest)) : rest.length < text.length := by
  fun_induction stringUnits? text generalizing units rest with
  | case1 => simp at h
  | case2 more => simp_all
  | case3 a b c d more unit hunit ih =>
    obtain ⟨⟨units', rest'⟩, hmore, heq⟩ := Option.map_eq_some_iff.mp h
    simp only [Prod.mk.injEq] at heq
    have := ih hmore
    simp only [← heq.2, List.length_cons]
    omega
  | case4 => simp at h
  | case5 letter more _ c hc ih =>
    obtain ⟨⟨units', rest'⟩, hmore, heq⟩ := Option.map_eq_some_iff.mp h
    simp only [Prod.mk.injEq] at heq
    have := ih hmore
    simp only [← heq.2, List.length_cons]
    omega
  | case6 => simp at h
  | case7 => simp at h
  | case8 c more _ _ _ hc ih =>
    obtain ⟨⟨units', rest'⟩, hmore, heq⟩ := Option.map_eq_some_iff.mp h
    simp only [Prod.mk.injEq] at heq
    have := ih hmore
    simp only [← heq.2, List.length_cons]
    omega

/-! ## Texts -/

/-- White space between tokens. -/
def isBlank (c : Char) : Bool := c == ' ' || c == '\n' || c == '\t' || c == '\r'

/-- The token that a single character is. -/
def punctuation? (c : Char) : Option Token :=
  match c with
  | '\x7b' => some .leftBrace
  | '\x7d' => some .rightBrace
  | '[' => some .leftBracket
  | ']' => some .rightBracket
  | ':' => some .colon
  | ',' => some .comma
  | _ => none

/-- The tokens of a text. -/
def tokens? (text : Text) : Option (List Token) :=
  match text with
  | [] => some []
  | c :: rest =>
    if isBlank c then tokens? rest
    else if c = '"' then
      match h : stringUnits? rest with
      | some (units, more) =>
        have := length_lt_of_stringUnits? h
        (tokens? more).map (.string (textOfUnits? units) :: ·)
      | none => none
    else
      match punctuation? c with
      | some token => (tokens? rest).map (token :: ·)
      | none =>
        match wordToken? ((c :: rest).takeWhile isWordChar) with
        | some token =>
          have : (rest.dropWhile isWordChar).length ≤ rest.length :=
            (List.dropWhile_suffix _).length_le
          (tokens? (rest.dropWhile isWordChar)).map (token :: ·)
        | none => none
termination_by text.length

end Json

end CommentBlocks
