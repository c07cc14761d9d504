import SqlText.Clause.Frame
import SqlText.Clause.Keep

/-!
# Analytic functions

A function over a window of rows. Some fields are written only together with others: the offset
behind an argument, the default value behind an offset, the star in the absence of an argument, the
frame behind a non-empty ordering.
-/

namespace SqlText

/-- The words between an analytic function and its window. -/
inductive AnalyticKind where
  | overWindow
  | withinGroup
  deriving DecidableEq

namespace AnalyticKind

instance : Inhabited AnalyticKind := ⟨overWindow⟩

/-- The kinds that a tag can name. -/
def all : List AnalyticKind := [overWindow, withinGroup]

/-- The words in front of the brackets around the window. -/
def token : AnalyticKind → String
  | overWindow => "OVER"
  | withinGroup => "WITHIN GROUP"

/-- The tag of a kind in JSON. -/
def tag : AnalyticKind → String
  | overWindow => "Over"
  | withinGroup => "WithinGroup"

/-- A kind is exchanged as its bare tag. -/
def encode (kind : AnalyticKind) : Json := .str kind.tag

/-- Reads a kind by its tag. -/
def decode : Decoder AnalyticKind := Decoder.oneOf all tag

end AnalyticKind

/-- An analytic function. -/
structure Analytic (ε : Type) where
  name : String
  kind : AnalyticKind
  argument : Option ε
  offset : Option ε
  defaultValue : Option ε
  allColumns : Bool
  distinct : Bool
  ignoreNulls : Bool
  keep : Option (Keep ε)
  partitionBy : List ε
  orderBy : List (OrderKey ε)
  frame : Option (Frame ε)
  deriving DecidableEq

namespace Analytic

variable {ε δ : Type}

/-! ## Construction -/

/-- An analytic function over all rows, without arguments. -/
def ofName (name : String) : Analytic ε :=
  ⟨name, .overWindow, none, none, none, false, false, false, none, [], [], none⟩

instance : Inhabited (Analytic ε) := ⟨ofName ""⟩

/-- Sets the first argument. -/
def withArgument (a : Analytic ε) (argument : ε) : Analytic ε :=
  { a with argument := some argument }

/-- Sets the partition of the window. -/
def withPartition (a : Analytic ε) (partitionBy : List ε) : Analytic ε :=
  { a with partitionBy := partitionBy }

/-- Sets the ordering of the window. -/
def withOrder (a : Analytic ε) (orderBy : List (OrderKey ε)) : Analytic ε :=
  { a with orderBy := orderBy }

/-- Sets the frame, which is written only if there is an ordering. -/
def withFrame (a : Analytic ε) (frame : Frame ε) : Analytic ε :=
  { a with frame := some frame }

/-! ## Parts -/

/-- Applies a function to the sub-expressions. -/
def map (f : ε → δ) (a : Analytic ε) : Analytic δ :=
  ⟨a.name, a.kind, a.argument.map f, a.offset.map f, a.defaultValue.map f, a.allColumns,
    a.distinct, a.ignoreNulls, a.keep.map (Keep.map f), a.partitionBy.map f,
    a.orderBy.map (OrderKey.map f), a.frame.map (Frame.map f)⟩

/-- The sub-expressions, those included that are not written. -/
def children (a : Analytic ε) : List ε :=
  a.argument.toList ++ a.offset.toList ++ a.defaultValue.toList ++
    a.keep.toList.flatMap Keep.children ++ a.partitionBy ++
    a.orderBy.flatMap OrderKey.children ++ a.frame.toList.flatMap Frame.children

/-! ## SQL text -/

/-- The arguments: none, a star, or one to three expressions. -/
def argumentsText (a : Analytic String) : String :=
  match a.argument with
  | none => Text.onlyIf a.allColumns "*"
  | some argument => argument ++ Text.ofOption a.offset fun offset =>
      ", " ++ offset ++ Text.ofOption a.defaultValue fun value => ", " ++ value

/-- The layout of the arguments: an expression that is not written is not laid out either. -/
def argumentsLayout (a : Analytic Layout) : Layout :=
  match a.argument with
  | none => Layout.onlyIf a.allColumns (.token "*")
  | some argument => argument ++ Layout.ofOption a.offset fun offset =>
      .token ", " ++ offset ++ Layout.ofOption a.defaultValue fun value => .token ", " ++ value

/-- The partition of the window, with a blank behind it. -/
def partitionText (a : Analytic String) : String :=
  if a.partitionBy.isEmpty then ""
  else "PARTITION BY " ++ Text.commaSeparated a.partitionBy ++ " "

/-- The layout of the partition, empty where there is nothing to partition by. -/
def partitionLayout (a : Analytic Layout) : Layout :=
  if a.partitionBy.isEmpty then .empty
  else .token "PARTITION BY " ++ Layout.commaSeparated a.partitionBy ++ .token " "

/-- The ordering of the window, and the frame behind it. -/
def orderText (a : Analytic String) : String :=
  if a.orderBy.isEmpty then ""
  else OrderKey.clauseText "ORDER BY " a.orderBy ++ Text.ofOption a.frame fun f => " " ++ f.text

/-- The layout of the ordering with the frame, which is left out together with it. -/
def orderLayout (a : Analytic Layout) : Layout :=
  if a.orderBy.isEmpty then .empty
  else
    OrderKey.clauseLayout "ORDER BY " a.orderBy ++
      Layout.ofOption a.frame fun f => .token " " ++ f.layout

/-- The name, the arguments, the keep clause and the window, in this order. -/
def text (a : Analytic String) : String :=
  a.name ++ "(" ++ Text.onlyIf a.distinct "DISTINCT " ++ a.argumentsText ++
    Text.onlyIf a.ignoreNulls " IGNORE NULLS" ++ ") " ++
    Text.ofOption a.keep (fun k => k.text ++ " ") ++ a.kind.token ++ " (" ++
    a.partitionText ++ a.orderText ++ ")"

/-- The layout of an analytic function, piece by piece as its text. -/
def layout (a : Analytic Layout) : Layout :=
  .verbatim a.name ++ .token "(" ++ Layout.onlyIf a.distinct (.token "DISTINCT ") ++
    a.argumentsLayout ++ Layout.onlyIf a.ignoreNulls (.token " IGNORE NULLS") ++ .token ") " ++
    Layout.ofOption a.keep (fun k => k.layout ++ .token " ") ++
    .token (a.kind.token ++ " (") ++ a.partitionLayout ++ a.orderLayout ++ .token ")"

/-! ## JSON -/

/-- The JSON form, given those of the sub-expressions. -/
def encode (a : Analytic Json) : Json :=
  .obj [("name", .str a.name), ("kind", a.kind.encode), ("expression", .ofOption a.argument),
    ("offset", .ofOption a.offset), ("default_value", .ofOption a.defaultValue),
    ("all_columns", .bool a.allColumns), ("distinct", .bool a.distinct),
    ("ignore_nulls", .bool a.ignoreNulls), ("keep", .ofOption (a.keep.map Keep.encode)),
    ("partition_by", .arr a.partitionBy), ("order_by", .arr (a.orderBy.map OrderKey.encode)),
    ("window", .ofOption (a.frame.map Frame.encode))]

/-- Reads the JSON form, given a reading of the sub-expressions. -/
def decode (expr : Decoder ε) : Decoder (Analytic ε) :=
  Decoder.record
    ["name", "kind", "expression", "offset", "default_value", "all_columns", "distinct",
      "ignore_nulls", "keep", "partition_by", "order_by", "window"]
    fun given => do
      return ⟨← given.required "name" Decoder.string, ← given.required "kind" AnalyticKind.decode,
        ← given.optional "expression" expr, ← given.optional "offset" expr,
        ← given.optional "default_value" expr, ← given.required "all_columns" Decoder.bool,
        ← given.required "distinct" Decoder.bool, ← given.required "ignore_nulls" Decoder.bool,
        ← given.optional "keep" (Keep.decode expr),
        ← given.required "partition_by" (Decoder.list expr),
        ← given.required "order_by" (Decoder.list (OrderKey.decode expr)),
        ← given.optional "window" (Frame.decode expr)⟩

end Analytic

end SqlText
