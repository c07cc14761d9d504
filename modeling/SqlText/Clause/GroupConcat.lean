import SqlText.Clause.Arguments
import SqlText.Clause.OrderKey

/-!
# Concatenation of groups

`GROUP_CONCAT(…)`: the values of a group joined to one text. The separator is written between quotes
as it is.
-/

namespace SqlText

/-- A concatenation of the values of a group. -/
structure GroupConcat (ε : Type) where
  distinct : Bool
  arguments : List ε
  orderBy : List (OrderKey ε)
  separator : Option String
  deriving DecidableEq

namespace GroupConcat

variable {ε δ : Type}

/-- Applies a function to the arguments and inside the ordering. -/
def map (f : ε → δ) (g : GroupConcat ε) : GroupConcat δ :=
  ⟨g.distinct, g.arguments.map f, g.orderBy.map (OrderKey.map f), g.separator⟩

/-- The arguments, then the expressions of the ordering. -/
def children (g : GroupConcat ε) : List ε :=
  g.arguments ++ g.orderBy.flatMap OrderKey.children

/-- The arguments without brackets of their own, the ordering and the separator. -/
def text (g : GroupConcat String) : String :=
  "GROUP_CONCAT(" ++ Text.onlyIf g.distinct "DISTINCT " ++ Arguments.text false g.arguments ++
    OrderKey.clauseText " ORDER BY " g.orderBy ++
    Text.ofOption g.separator (fun s => " SEPARATOR " ++ Text.quoted s) ++ ")"

/-- The layout of a concatenation, piece by piece as its text. -/
def layout (g : GroupConcat Layout) : Layout :=
  .token "GROUP_CONCAT(" ++ Layout.onlyIf g.distinct (.token "DISTINCT ") ++
    Arguments.layout false g.arguments ++ OrderKey.clauseLayout " ORDER BY " g.orderBy ++
    Layout.ofOption g.separator (fun s => .token " SEPARATOR " ++ Layout.quoted s) ++ .token ")"

/-- The JSON form, in which the arguments are a record as in a call. -/
def encode (g : GroupConcat Json) : Json :=
  .obj [("distinct", .bool g.distinct), ("expressions", Arguments.encode g.arguments),
    ("order_by", .arr (g.orderBy.map OrderKey.encode)), ("separator", .ofText? g.separator)]

/-- Reads a concatenation, of which only the separator may be absent. -/
def decode (expr : Decoder ε) : Decoder (GroupConcat ε) :=
  Decoder.record ["distinct", "expressions", "order_by", "separator"] fun given => do
    return ⟨← given.required "distinct" Decoder.bool,
      ← given.required "expressions" (Arguments.decode expr),
      ← given.required "order_by" (Decoder.list (OrderKey.decode expr)),
      ← given.optional "separator" Decoder.string⟩

end GroupConcat

end SqlText
