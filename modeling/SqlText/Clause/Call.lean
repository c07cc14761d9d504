import SqlText.Clause.Arguments
import SqlText.Clause.Keep

/-!
# Function calls

A call may have no argument list at all; it is then written with empty brackets, or with a star for
all columns. A quantifier is written only in front of an argument list. An escaped call stands in
braces behind the word `fn`.
-/

namespace SqlText

/-- Whether an aggregate counts equal values once. -/
inductive SetQuantifier where
  | distinct
  | all
  deriving DecidableEq

namespace SetQuantifier

/-- The quantifiers that a tag can name; `all` is taken by one of them. -/
def values : List SetQuantifier := [distinct, all]

/-- The word in front of the arguments. -/
def token : SetQuantifier → String
  | distinct => "DISTINCT"
  | all => "ALL"

/-- The tag of a quantifier in JSON. -/
def tag : SetQuantifier → String
  | distinct => "Distinct"
  | all => "All"

/-- A quantifier is exchanged as its bare tag. -/
def encode (quantifier : SetQuantifier) : Json := .str quantifier.tag

/-- Reads a quantifier by its tag. -/
def decode : Decoder SetQuantifier := Decoder.oneOf values tag

end SetQuantifier

/-- A function call. -/
structure Call (ε : Type) where
  name : String
  arguments : Option (List ε)
  quantifier : Option SetQuantifier
  allColumns : Bool
  escaped : Bool
  /-- A field of the result, written behind a dot. -/
  field : Option String
  keep : Option (Keep ε)
  deriving DecidableEq

namespace Call

variable {ε δ : Type}

/-! ## Construction -/

/-- A call without argument list. -/
def ofName (name : String) : Call ε :=
  ⟨name, none, none, false, false, none, none⟩

/-- Sets the arguments. -/
def withArguments (call : Call ε) (arguments : List ε) : Call ε :=
  { call with arguments := some arguments }

/-- Puts a star in place of missing arguments. -/
def onAllColumns (call : Call ε) : Call ε :=
  { call with allColumns := true }

/-- Sets the quantifier, which is written only with arguments. -/
def withQuantifier (call : Call ε) (quantifier : SetQuantifier) : Call ε :=
  { call with quantifier := some quantifier }

/-- Puts the call in the escape form with braces. -/
def inEscape (call : Call ε) : Call ε :=
  { call with escaped := true }

/-- Takes a field of the result. -/
def withField (call : Call ε) (field : String) : Call ε :=
  { call with field := some field }

/-- Sets the keep clause. -/
def withKeep (call : Call ε) (keep : Keep ε) : Call ε :=
  { call with keep := some keep }

/-! ## Parts -/

/-- Applies a function to the sub-expressions. -/
def map (f : ε → δ) (call : Call ε) : Call δ :=
  ⟨call.name, call.arguments.map (List.map f), call.quantifier, call.allColumns, call.escaped,
    call.field, call.keep.map (Keep.map f)⟩

/-- The sub-expressions, in the order in which they are written. -/
def children (call : Call ε) : List ε :=
  call.arguments.toList.flatten ++ call.keep.toList.flatMap Keep.children

/-! ## SQL text -/

/-- The argument list, with its brackets. -/
def argumentsText (call : Call String) : String :=
  match call.arguments, call.quantifier with
  | none, _ => if call.allColumns then "(*)" else "()"
  | some arguments, some quantifier =>
    "(" ++ quantifier.token ++ " " ++ Arguments.text false arguments ++ ")"
  | some arguments, none => Arguments.text true arguments

/-- The layout of the argument list: the brackets and the quantifier around the arguments. -/
def argumentsLayout (call : Call Layout) : Layout :=
  match call.arguments, call.quantifier with
  | none, _ => .token (if call.allColumns then "(*)" else "()")
  | some arguments, some quantifier =>
    .token ("(" ++ quantifier.token ++ " ") ++ Arguments.layout false arguments ++ .token ")"
  | some arguments, none => Arguments.layout true arguments

/-- The name, the arguments, the field and the keep clause; in braces if it is escaped. -/
def text (call : Call String) : String :=
  Text.onlyIf call.escaped "\x7bfn " ++ call.name ++ call.argumentsText ++
    Text.ofOption call.field (fun f => "." ++ f) ++
    Text.ofOption call.keep (fun k => " " ++ k.text) ++ Text.onlyIf call.escaped "\x7d"

/-- The layout of a call, piece by piece as its text. -/
def layout (call : Call Layout) : Layout :=
  Layout.onlyIf call.escaped (.token "\x7bfn ") ++ .verbatim call.name ++ call.argumentsLayout ++
    Layout.ofOption call.field (fun f => .token "." ++ .verbatim f) ++
    Layout.ofOption call.keep (fun k => .token " " ++ k.layout) ++
    Layout.onlyIf call.escaped (.token "\x7d")

/-! ## JSON -/

/-- The JSON form, given those of the sub-expressions. -/
def encode (call : Call Json) : Json :=
  .obj [("name", .str call.name), ("parameters", .ofOption (call.arguments.map Arguments.encode)),
    ("quantifier", .ofOption (call.quantifier.map SetQuantifier.encode)),
    ("all_columns", .bool call.allColumns), ("escaped", .bool call.escaped),
    ("attribute", .ofText? call.field), ("keep", .ofOption (call.keep.map Keep.encode))]

/-- Reads the JSON form, given a reading of the sub-expressions. -/
def decode (expr : Decoder ε) : Decoder (Call ε) :=
  Decoder.record ["name", "parameters", "quantifier", "all_columns", "escaped", "attribute", "keep"]
    fun given => do
      return ⟨← given.required "name" Decoder.string,
        ← given.optional "parameters" (Arguments.decode expr),
        ← given.optional "quantifier" SetQuantifier.decode,
        ← given.required "all_columns" Decoder.bool, ← given.required "escaped" Decoder.bool,
        ← given.optional "attribute" Decoder.string,
        ← given.optional "keep" (Keep.decode expr)⟩

end Call

end SqlText
