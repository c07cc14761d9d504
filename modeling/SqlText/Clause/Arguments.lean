import SqlText.Json.Decoder
import SqlText.Layout
import SqlText.Text

/-!
# Lists of expressions

Function arguments, the values of a membership test, rows. Whether a list stands in brackets is
decided where it is used and holds for that list alone.

Here and in the other clauses, the type of the sub-expressions is a parameter. What is said of a
clause then says how the parts are put together, whatever the parts are: trees, texts, layouts or
JSON values.
-/

namespace SqlText.Arguments

variable {ε : Type}

/-- The expressions with commas between them, in brackets where the place of use asks for them. -/
def text (brackets : Bool) (arguments : List String) : String :=
  if brackets then Text.bracketed (Text.commaSeparated arguments)
  else Text.commaSeparated arguments

/-- The layout of a list, with the brackets outside of all the expressions. -/
def layout (brackets : Bool) (arguments : List Layout) : Layout :=
  if brackets then Layout.bracketed (Layout.commaSeparated arguments)
  else Layout.commaSeparated arguments

/-- The JSON form: a record with the expressions as its one field. -/
def encode (arguments : List Json) : Json :=
  .obj [("expressions", .arr arguments)]

/-- Reads the expressions of a list, given a reading of one expression. -/
def decode (expr : Decoder ε) : Decoder (List ε) :=
  Decoder.record ["expressions"] fun given => given.required "expressions" (Decoder.list expr)

end SqlText.Arguments
