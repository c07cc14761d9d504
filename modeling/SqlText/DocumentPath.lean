import SqlText.Operator
import SqlText.Layout

/-!
# Paths into documents

A path that is followed from a column into a JSON document, step by step. Keys are written as they
are, with whatever quotes they have.
-/

namespace SqlText

/-- A step of a path. -/
structure PathStep where
  op : DocumentOp
  key : String
  deriving DecidableEq

namespace PathStep

/-- The operator and the key, with nothing between them. -/
def text (step : PathStep) : String :=
  step.op.token ++ step.key

/-- The layout of a step, the key verbatim. -/
def layout (step : PathStep) : Layout :=
  .token step.op.token ++ .verbatim step.key

/-- The JSON form: a record of the operator and the key. -/
def encode (step : PathStep) : Json :=
  .obj [("operator", step.op.encode), ("key", .str step.key)]

/-- Reads a step, of which both fields are required. -/
def decode : Decoder PathStep :=
  Decoder.record ["operator", "key"] fun given => do
    return ⟨← given.required "operator" DocumentOp.decode, ← given.required "key" Decoder.string⟩

end PathStep

end SqlText
