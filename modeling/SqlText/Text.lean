/-!
# Putting texts together

The few ways in which texts are combined everywhere.
-/

namespace SqlText.Text

/-- A text that is there only under a condition. -/
def onlyIf (condition : Bool) (text : String) : String :=
  if condition then text else ""

/-- The text of a part that may be absent. -/
def ofOption {α : Type} (part : Option α) (text : α → String) : String :=
  match part with
  | none => ""
  | some a => text a

/-- Texts with a comma and a blank between them. -/
def commaSeparated (parts : List String) : String :=
  String.intercalate ", " parts

/-- A text in round brackets. -/
def bracketed (text : String) : String :=
  "(" ++ text ++ ")"

/-- A text in quotes, as it is: quotes inside it are not doubled. -/
def quoted (text : String) : String :=
  "'" ++ text ++ "'"

end SqlText.Text
