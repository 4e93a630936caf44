import CommentBlocks.Json.Token

/-!
# JSON values

The values of JSON as far as configuration needs them, and a reader for them. Members of an object
keep their order and may repeat a key: whether that is an error depends on what the object stands
for. A string, and so a key, may be without text.

## Records

A record may be written as an object, where members that are not fields are passed over, or as an
array of its fields in order, where the last ones may be left out. `Json.fields?` reads both and
gives one entry for each field.
-/

namespace CommentBlocks

/-- A JSON value. -/
inductive Json where
  | null
  | bool (value : Bool)
  /-- A number written with digits only. -/
  | natural (value : Nat)
  /-- A number with a sign, a fraction or an exponent. -/
  | number
  /-- A string, and its text if it has one. -/
  | string (text : Option Text)
  | array (items : List Json)
  | object (members : List (Option Text × Json))

namespace Json

/-! ## Reading -/

/-- What is left of `tokens` after some of them have been read. -/
abbrev Rest (tokens : List Token) := { rest : List Token // rest.length < tokens.length }

mutual

def value? (tokens : List Token) : Option (Json × Rest tokens) :=
  match tokens with
  | .null :: rest => some (.null, ⟨rest, by simp⟩)
  | .bool value :: rest => some (.bool value, ⟨rest, by simp⟩)
  | .natural value :: rest => some (.natural value, ⟨rest, by simp⟩)
  | .number :: rest => some (.number, ⟨rest, by simp⟩)
  | .string text :: rest => some (.string text, ⟨rest, by simp⟩)
  | .leftBracket :: .rightBracket :: rest =>
    some (.array [], ⟨rest, by simp only [List.length_cons]; omega⟩)
  | .leftBracket :: rest =>
    (items? rest).map fun (items, ⟨more, h⟩) ↦
      (.array items, ⟨more, by simp only [List.length_cons]; omega⟩)
  | .leftBrace :: .rightBrace :: rest =>
    some (.object [], ⟨rest, by simp only [List.length_cons]; omega⟩)
  | .leftBrace :: rest =>
    (members? rest).map fun (members, ⟨more, h⟩) ↦
      (.object members, ⟨more, by simp only [List.length_cons]; omega⟩)
  | _ => none
termination_by (tokens.length, 0)

/-- Read the items of an array, of which there is at least one, and the closing bracket. -/
def items? (tokens : List Token) : Option (List Json × Rest tokens) :=
  match value? tokens with
  | some (item, ⟨.rightBracket :: rest, h⟩) =>
    some ([item], ⟨rest, by simp only [List.length_cons] at h; omega⟩)
  | some (item, ⟨.comma :: rest, h⟩) =>
    have : rest.length < tokens.length := by simp only [List.length_cons] at h; omega
    (items? rest).map fun (items, ⟨more, h⟩) ↦ (item :: items, ⟨more, by omega⟩)
  | _ => none
termination_by (tokens.length, 1)

/-- Read the members of an object, of which there is at least one, and the closing brace. -/
def members? (tokens : List Token) : Option (List (Option Text × Json) × Rest tokens) :=
  match tokens with
  | .string key :: .colon :: rest =>
    match value? rest with
    | some (value, ⟨.rightBrace :: rest, h⟩) =>
      some ([(key, value)], ⟨rest, by simp only [List.length_cons] at h ⊢; omega⟩)
    | some (value, ⟨.comma :: more, h⟩) =>
      have : more.length < (Token.string key :: .colon :: rest).length := by
        simp only [List.length_cons] at h ⊢; omega
      (members? more).map fun (members, ⟨last, h'⟩) ↦
        ((key, value) :: members, ⟨last, by omega⟩)
    | _ => none
  | _ => none
termination_by (tokens.length, 1)

end

/-- Read a text that is one value. -/
def parse? (text : Text) : Option Json :=
  match tokens? text with
  | none => none
  | some tokens =>
    match value? tokens with
    | some (value, ⟨[], _⟩) => some value
    | _ => none

/-! ## Records -/

/-- The value of each named field of a record, in order. A record is an object, in which no field
occurs twice and every key has text, or an array with no more items than there are fields. -/
def fields? (names : List String) : Json → Option (List (Option Json))
  | array items =>
    if items.length ≤ names.length then
      some ((List.range names.length).map fun i ↦ items[i]?)
    else none
  | object members =>
    if members.all fun (key, _) ↦ key.isSome then
      names.mapM fun name ↦
        match members.filter fun (key, _) ↦ key = some name.toList with
        | [] => some none
        | [(_, value)] => some (some value)
        | _ => none
    else none
  | _ => none

/-- The value of a field that counts something, `default` if the field is left out. Counts fit in 64
bits. -/
def count? (default : Nat) : Option Json → Option Nat
  | none => some default
  | some (natural value) => if value < UInt64.size then some value else none
  | some _ => none

end Json

end CommentBlocks
