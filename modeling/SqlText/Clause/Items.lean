import SqlText.Clause.Arguments
import SqlText.Clause.Query
import SqlText.Operator

/-!
# Operands of membership tests

The right side of `IN` is a list of values, several rows of values, or a query. The left side is an
expression or again such items. Lists and rows stand in brackets each; rows have no brackets around
them all.
-/

namespace SqlText

/-- Items on a side of a membership test. -/
inductive Items (ε : Type) where
  | list (values : List ε)
  | rows (rows : List (List ε))
  | query (query : SubQuery ε)
  deriving DecidableEq

namespace Items

variable {ε δ : Type}

/-- Applies a function to the values, whatever kind of items they stand in. -/
def map (f : ε → δ) : Items ε → Items δ
  | list values => list (values.map f)
  | rows lists => rows (lists.map (List.map f))
  | query sub => query (sub.map f)

/-- The values from left to right, those of all rows one after another. -/
def children : Items ε → List ε
  | list values => values
  | rows lists => lists.flatten
  | query sub => sub.children

/-- Every list stands in brackets of its own. -/
def text : Items String → String
  | list values => Arguments.text true values
  | rows lists => Text.commaSeparated (lists.map (Arguments.text true))
  | query sub => sub.text

/-- The layout of items, piece by piece as their text. -/
def layout : Items Layout → Layout
  | list values => Arguments.layout true values
  | rows lists => Layout.commaSeparated (lists.map (Arguments.layout true))
  | query sub => sub.layout

/-- The JSON form: a tag for the kind of items, then the items. -/
def encode : Items Json → Json
  | list values => .tagged "Expressions" (Arguments.encode values)
  | rows lists => .tagged "Multi" (.arr (lists.map Arguments.encode))
  | query sub => .tagged "SubSelect" sub.encode

/-- Reads items by the tag of their kind. -/
def decode (expr : Decoder ε) : Decoder (Items ε) :=
  Decoder.tagged fun tag given =>
    match tag with
    | "Expressions" => (Decoder.payload (Arguments.decode expr) given).map list
    | "Multi" => (Decoder.payload (Decoder.list (Arguments.decode expr)) given).map rows
    | "SubSelect" => (Decoder.payload (SubQuery.decode expr) given).map query
    | _ => none

end Items

/-- The left side of a membership test. -/
inductive Member (ε : Type) where
  | expr (expr : ε)
  | items (items : Items ε)
  deriving DecidableEq

namespace Member

variable {ε δ : Type}

/-- Applies a function to the expression, or inside the items. -/
def map (f : ε → δ) : Member ε → Member δ
  | expr e => expr (f e)
  | items is => items (is.map f)

/-- The expression alone, or the values of the items. -/
def children : Member ε → List ε
  | expr e => [e]
  | items is => is.children

/-- A member; only a single expression carries the join mark. -/
def text (join : OuterJoin) : Member String → String
  | expr e => e ++ Text.onlyIf join.marksLeft OuterJoin.mark
  | items is => is.text

/-- The layout of a member, the join mark behind it if it is a single expression. -/
def layout (join : OuterJoin) : Member Layout → Layout
  | expr e => e ++ Layout.onlyIf join.marksLeft (.token OuterJoin.mark)
  | items is => is.layout

/-- The JSON form: a tag that tells an expression from items. -/
def encode : Member Json → Json
  | expr e => .tagged "Expr" e
  | items is => .tagged "Items" is.encode

/-- Reads a member, given a reading of a single expression. -/
def decode (element : Decoder ε) : Decoder (Member ε) :=
  Decoder.tagged fun tag given =>
    match tag with
    | "Expr" => (Decoder.payload element given).map expr
    | "Items" => (Decoder.payload (Items.decode element) given).map items
    | _ => none

end Member

end SqlText
