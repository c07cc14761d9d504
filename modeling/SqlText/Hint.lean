import SqlText.Json.Decoder
import SqlText.Layout

/-!
# Optimizer hints

A hint is written as a comment, either to the end of its line or between delimiters.
-/

namespace SqlText

/-- An optimizer hint. -/
structure Hint where
  value : String
  /-- Whether the comment goes to the end of the line. -/
  singleLine : Bool
  deriving DecidableEq

namespace Hint

/-- What opens the comment; the plus sign marks it as a hint. -/
def opening (hint : Hint) : String :=
  if hint.singleLine then "--+ " else "/*+ "

/-- What closes the comment: the end of the line, or a delimiter. -/
def closing (hint : Hint) : String :=
  if hint.singleLine then "\n" else " */"

/-- The hint between what opens and what closes its comment. -/
def text (hint : Hint) : String :=
  hint.opening ++ hint.value ++ hint.closing

/-- The layout of a hint, its content verbatim. -/
def layout (hint : Hint) : Layout :=
  .token hint.opening ++ .verbatim hint.value ++ .token hint.closing

/-- The JSON form: a record of the content and the kind of comment. -/
def encode (hint : Hint) : Json :=
  .obj [("value", .str hint.value), ("single_line", .bool hint.singleLine)]

/-- Reads a hint, of which both fields are required. -/
def decode : Decoder Hint :=
  Decoder.record ["value", "single_line"] fun given => do
    return ⟨← given.required "value" Decoder.string,
      ← given.required "single_line" Decoder.bool⟩

end Hint

end SqlText
