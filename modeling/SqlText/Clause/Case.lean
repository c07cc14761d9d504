import SqlText.Json.Decoder
import SqlText.Layout
import SqlText.Text

/-!
# Case expressions

`CASE … WHEN … THEN … ELSE … END`. With an operand each branch names a value that the operand is
compared with, without one a condition.
-/

namespace SqlText

/-- A branch of a case expression. -/
structure When (ε : Type) where
  condition : ε
  result : ε
  deriving DecidableEq

namespace When

variable {ε δ : Type}

/-- Applies a function to the condition and to the result. -/
def map (f : ε → δ) (branch : When ε) : When δ :=
  ⟨f branch.condition, f branch.result⟩

/-- The condition, then the result. -/
def children (branch : When ε) : List ε :=
  [branch.condition, branch.result]

/-- A branch with a blank behind it, so that branches follow one another without a separator. -/
def text (branch : When String) : String :=
  "WHEN " ++ branch.condition ++ " THEN " ++ branch.result ++ " "

/-- The layout of a branch, the blank behind it included. -/
def layout (branch : When Layout) : Layout :=
  .token "WHEN " ++ branch.condition ++ .token " THEN " ++ branch.result ++ .token " "

/-- The JSON form of a branch, given those of its two expressions. -/
def encode (branch : When Json) : Json :=
  .obj [("when", branch.condition), ("then", branch.result)]

/-- Reads a branch, of which both expressions are required. -/
def decode (expr : Decoder ε) : Decoder (When ε) :=
  Decoder.record ["when", "then"] fun given => do
    return ⟨← given.required "when" expr, ← given.required "then" expr⟩

end When

/-- A case expression. -/
structure Case (ε : Type) where
  operand : Option ε
  branches : List (When ε)
  otherwise : Option ε
  deriving DecidableEq

namespace Case

variable {ε δ : Type}

/-- Applies a function to the operand, inside the branches and to the alternative. -/
def map (f : ε → δ) (c : Case ε) : Case δ :=
  ⟨c.operand.map f, c.branches.map (When.map f), c.otherwise.map f⟩

/-- The operand, the expressions of the branches and the alternative, as they are written. -/
def children (c : Case ε) : List ε :=
  c.operand.toList ++ c.branches.flatMap When.children ++ c.otherwise.toList

/-- The operand, the branches and the alternative, each with a blank behind it, before `END`. -/
def text (c : Case String) : String :=
  "CASE " ++ Text.ofOption c.operand (· ++ " ") ++ String.join (c.branches.map When.text) ++
    Text.ofOption c.otherwise (fun e => "ELSE " ++ e ++ " ") ++ "END"

/-- The layout of a case expression, piece by piece as its text. -/
def layout (c : Case Layout) : Layout :=
  .token "CASE " ++ Layout.ofOption c.operand (· ++ .token " ") ++
    Layout.concat (c.branches.map When.layout) ++
    Layout.ofOption c.otherwise (fun e => .token "ELSE " ++ e ++ .token " ") ++ .token "END"

/-- The JSON form, with `null` for a missing operand or alternative. -/
def encode (c : Case Json) : Json :=
  .obj [("switch", .ofOption c.operand), ("when_clauses", .arr (c.branches.map When.encode)),
    ("else_expr", .ofOption c.otherwise)]

/-- Reads a case expression: the branches are required, the operand and the alternative are not. -/
def decode (expr : Decoder ε) : Decoder (Case ε) :=
  Decoder.record ["switch", "when_clauses", "else_expr"] fun given => do
    return ⟨← given.optional "switch" expr,
      ← given.required "when_clauses" (Decoder.list (When.decode expr)),
      ← given.optional "else_expr" expr⟩

end Case

end SqlText
