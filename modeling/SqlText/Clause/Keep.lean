import SqlText.Clause.OrderKey

/-!
# Keep clauses

`KEEP (DENSE_RANK FIRST ORDER BY …)`: an aggregate looks only at the rows that rank first or last.
-/

namespace SqlText

/-- A keep clause. -/
structure Keep (ε : Type) where
  /-- The ranking function. -/
  name : String
  /-- Whether the first rows are kept, and not the last ones. -/
  first : Bool
  orderBy : List (OrderKey ε)
  deriving DecidableEq

namespace Keep

variable {ε δ : Type}

/-- Applies a function inside the ordering. -/
def map (f : ε → δ) (keep : Keep ε) : Keep δ :=
  ⟨keep.name, keep.first, keep.orderBy.map (OrderKey.map f)⟩

/-- The expressions of the ordering, which are all that a keep clause holds. -/
def children (keep : Keep ε) : List ε :=
  keep.orderBy.flatMap OrderKey.children

/-- The end of the ranking that is kept. -/
def rank (keep : Keep ε) : String :=
  if keep.first then " FIRST" else " LAST"

/-- The ranking function, the end that is kept, and the ordering. -/
def text (keep : Keep String) : String :=
  "KEEP (" ++ keep.name ++ keep.rank ++ OrderKey.clauseText " ORDER BY " keep.orderBy ++ ")"

/-- The layout of a keep clause, piece by piece as its text. -/
def layout (keep : Keep Layout) : Layout :=
  .token "KEEP (" ++ .verbatim keep.name ++ .token keep.rank ++
    OrderKey.clauseLayout " ORDER BY " keep.orderBy ++ .token ")"

/-- The JSON form of a keep clause, given those of its ordering keys. -/
def encode (keep : Keep Json) : Json :=
  .obj [("name", .str keep.name), ("first", .bool keep.first),
    ("order_by", .arr (keep.orderBy.map OrderKey.encode))]

/-- Reads a keep clause, of which all fields are required. -/
def decode (expr : Decoder ε) : Decoder (Keep ε) :=
  Decoder.record ["name", "first", "order_by"] fun given => do
    return ⟨← given.required "name" Decoder.string, ← given.required "first" Decoder.bool,
      ← given.required "order_by" (Decoder.list (OrderKey.decode expr))⟩

end Keep

end SqlText
