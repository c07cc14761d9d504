import SqlText.Json

/-!
# Writing JSON text

The compact form: no blanks, every character written as itself except quotes, backslashes and the
control characters below the space.
-/

namespace SqlText.Json

/-- The hexadecimal digit of a value below sixteen. -/
def hexDigit (n : Nat) : Char :=
  Nat.digitChar (n % 16)

/-- A character inside quotes. -/
def escapeChar (c : Char) : String :=
  if c = '"' then "\\\""
  else if c = '\\' then "\\\\"
  else if c.toNat < 0x20 then
    "\\u00" ++ String.ofList [hexDigit (c.toNat / 16), hexDigit c.toNat]
  else c.toString

/-- A text in quotes. -/
def quote (text : String) : String :=
  text.foldl (fun out c => out ++ escapeChar c) "\"" ++ "\""

mutual

/-- Appends the compact form of a value to `out`. -/
def writeTo (out : String) : Json → String
  | .null => out ++ "null"
  | .bool true => out ++ "true"
  | .bool false => out ++ "false"
  | .int n => out ++ toString n
  | .decimal spelling => out ++ spelling
  | .str text => out ++ quote text
  | .arr items => writeItems (out ++ "[") "" items ++ "]"
  | .obj members => writeMembers (out ++ "\x7b") "" members ++ "\x7d"

/-- Appends items, each behind `separator` and the later ones behind a comma. -/
def writeItems (out separator : String) : List Json → String
  | [] => out
  | item :: rest => writeItems (writeTo (out ++ separator) item) "," rest

/-- Appends members, each behind `separator` and the later ones behind a comma. -/
def writeMembers (out separator : String) : List (String × Json) → String
  | [] => out
  | (key, value) :: rest =>
    writeMembers (writeTo (out ++ separator ++ quote key ++ ":") value) "," rest

end

/-- The compact form of a value. -/
def render (value : Json) : String :=
  writeTo "" value

end SqlText.Json
