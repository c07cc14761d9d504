import SqlText.Json.Decoder
import SqlText.Layout
import SqlText.Text
import SqlText.Temporal.Timestamp

/-!
# Literals

Numbers are kept as the text that spells them. A quoted text is written as it is, quotes inside it
included. Dates, times and timestamps are values: they are written in the escape form with braces,
while a literal behind one of the words `DATE`, `TIME` and `TIMESTAMP` is just a text.
-/

namespace SqlText

/-- The words that introduce a datetime literal. -/
inductive DateTimeWord where
  | date
  | time
  | timestamp
  deriving DecidableEq

namespace DateTimeWord

/-- The words that a tag can name. -/
def all : List DateTimeWord := [date, time, timestamp]

/-- The word as it stands in front of the quoted text. -/
def token : DateTimeWord → String
  | date => "DATE"
  | time => "TIME"
  | timestamp => "TIMESTAMP"

/-- The tag of a word in JSON. -/
def tag : DateTimeWord → String
  | date => "Date"
  | time => "Time"
  | timestamp => "Timestamp"

/-- A word is exchanged as its bare tag. -/
def encode (word : DateTimeWord) : Json := .str word.tag

/-- Reads a word by its tag. -/
def decode : Decoder DateTimeWord := Decoder.oneOf all tag

end DateTimeWord

/-- A quoted text with a marker in front of its opening quote, such as a character set. -/
structure QuotedText where
  marker : Option String
  value : String
  deriving DecidableEq

namespace QuotedText

/-- The marker, then the text between quotes, with nothing between the two. -/
def text (q : QuotedText) : String :=
  Text.ofOption q.marker id ++ Text.quoted q.value

/-- The layout of a quoted text; both the marker and the text are verbatim. -/
def layout (q : QuotedText) : Layout :=
  Layout.ofOption q.marker .verbatim ++ Layout.quoted q.value

/-- The JSON form, with `null` for a missing marker. -/
def encode (q : QuotedText) : Json :=
  .obj [("prefix", .ofText? q.marker), ("value", .str q.value)]

/-- Reads a quoted text, of which only the marker may be absent. -/
def decode : Decoder QuotedText :=
  Decoder.record ["prefix", "value"] fun given => do
    return ⟨← given.optional "prefix" Decoder.string, ← given.required "value" Decoder.string⟩

end QuotedText

/-- A literal value. -/
inductive Literal where
  | long (spelling : String)
  | double (spelling : String)
  | hex (spelling : String)
  | string (value : QuotedText)
  | date (value : Date)
  | time (value : Time)
  | timestamp (value : Timestamp)
  | dateTime (word : DateTimeWord) (value : String)
  | null
  deriving DecidableEq

namespace Literal

/-! ## SQL text -/

/-- A temporal value in its escape form. -/
def escapeForm (keyword value : String) : String :=
  "\x7b" ++ keyword ++ " '" ++ value ++ "'\x7d"

/-- The text of a literal: spellings as they are, temporal values in their escape forms. -/
def text : Literal → String
  | long spelling => spelling
  | double spelling => spelling
  | hex spelling => spelling
  | string value => value.text
  | date value => escapeForm "d" value.text
  | time value => escapeForm "t" value.text
  | timestamp value => escapeForm "ts" value.text
  | dateTime word value => word.token ++ " " ++ Text.quoted value
  | null => "NULL"

/-- The layout of a literal; the text of a temporal value is one token. -/
def layout : Literal → Layout
  | long spelling => .verbatim spelling
  | double spelling => .verbatim spelling
  | hex spelling => .verbatim spelling
  | string value => value.layout
  | date value => .token (escapeForm "d" value.text)
  | time value => .token (escapeForm "t" value.text)
  | timestamp value => .token (escapeForm "ts" value.text)
  | dateTime word value => .token (word.token ++ " ") ++ Layout.quoted value
  | null => .token "NULL"

/-! ## JSON -/

/-- The JSON form: temporal values as texts, a timestamp in the form with the letter T. -/
def encode : Literal → Json
  | long spelling => .tagged "Long" (.str spelling)
  | double spelling => .tagged "Double" (.str spelling)
  | hex spelling => .tagged "Hex" (.str spelling)
  | string value => .tagged "String" value.encode
  | date value => .tagged "Date" (.str value.text)
  | time value => .tagged "Time" (.str value.text)
  | timestamp value => .tagged "Timestamp" (.str value.isoText)
  | dateTime word value =>
    .tagged "DateTime" (.obj [("kind", word.encode), ("value", .str value)])
  | null => .str "Null"

/-- Reads a text that `parse` accepts. -/
def decodeParsed {α : Type} (parse : String → Option α) : Decoder α :=
  fun j => (Decoder.string j).bind parse

/-- Reads the word and the text of a datetime literal, given as named fields. -/
def decodeDateTime : Decoder Literal :=
  Decoder.fields fun given => do
    return dateTime (← given.required "kind" DateTimeWord.decode)
      (← given.required "value" Decoder.string)

/-- Reads a literal by its tag; the texts of temporal values have to be valid. -/
def decode : Decoder Literal :=
  Decoder.tagged fun tag given =>
    match tag with
    | "Long" => (Decoder.payload Decoder.string given).map long
    | "Double" => (Decoder.payload Decoder.string given).map double
    | "Hex" => (Decoder.payload Decoder.string given).map hex
    | "String" => (Decoder.payload QuotedText.decode given).map string
    | "Date" => (Decoder.payload (decodeParsed Date.parse?) given).map date
    | "Time" => (Decoder.payload (decodeParsed Time.parse?) given).map time
    | "Timestamp" => (Decoder.payload (decodeParsed Timestamp.parse?) given).map timestamp
    | "DateTime" => Decoder.payload decodeDateTime given
    | "Null" => Decoder.bare null given
    | _ => none

end Literal

end SqlText
