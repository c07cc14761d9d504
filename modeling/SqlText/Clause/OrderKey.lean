import SqlText.Json.Decoder
import SqlText.Layout
import SqlText.Text

/-!
# Ordering keys

A key of an `ORDER BY` list: an expression, perhaps with a direction and a place for nulls. Nothing
is written that is not given, so an ascending order may be implicit.
-/

namespace SqlText

/-- The direction of a key. -/
inductive Direction where
  | ascending
  | descending
  deriving DecidableEq

namespace Direction

/-- The directions that a tag can name. -/
def all : List Direction := [ascending, descending]

/-- The word behind the expression of a key. -/
def token : Direction → String
  | ascending => "ASC"
  | descending => "DESC"

/-- The tag of a direction in JSON. -/
def tag : Direction → String
  | ascending => "Asc"
  | descending => "Desc"

/-- A direction is exchanged as its bare tag. -/
def encode (direction : Direction) : Json := .str direction.tag

/-- Reads a direction by its tag. -/
def decode : Decoder Direction := Decoder.oneOf all tag

end Direction

/-- Where nulls are sorted. -/
inductive NullPlacement where
  | first
  | last
  deriving DecidableEq

namespace NullPlacement

/-- The placements that a tag can name. -/
def all : List NullPlacement := [first, last]

/-- The two words behind the direction of a key. -/
def token : NullPlacement → String
  | first => "NULLS FIRST"
  | last => "NULLS LAST"

/-- The tag of a placement in JSON. -/
def tag : NullPlacement → String
  | first => "First"
  | last => "Last"

/-- A placement is exchanged as its bare tag. -/
def encode (placement : NullPlacement) : Json := .str placement.tag

/-- Reads a placement by its tag. -/
def decode : Decoder NullPlacement := Decoder.oneOf all tag

end NullPlacement

/-- A key of an ordering. -/
structure OrderKey (ε : Type) where
  expr : ε
  direction : Option Direction
  nulls : Option NullPlacement
  deriving DecidableEq

namespace OrderKey

variable {ε δ : Type}

/-- A key without direction. -/
def ofExpr (expr : ε) : OrderKey ε := ⟨expr, none, none⟩

/-- A key that is explicitly ascending. -/
def ascending (expr : ε) : OrderKey ε := ⟨expr, some .ascending, none⟩

/-- A descending key. -/
def descending (expr : ε) : OrderKey ε := ⟨expr, some .descending, none⟩

/-- Sets the place of nulls. -/
def withNulls (key : OrderKey ε) (nulls : NullPlacement) : OrderKey ε :=
  { key with nulls := some nulls }

/-- Applies a function to the expression of the key. -/
def map (f : ε → δ) (key : OrderKey ε) : OrderKey δ :=
  ⟨f key.expr, key.direction, key.nulls⟩

/-- The expression of the key. -/
def children (key : OrderKey ε) : List ε := [key.expr]

/-- A word behind a key. -/
def suffix (word : String) : String := " " ++ word

/-- The expression, the direction and the place of nulls. -/
def text (key : OrderKey String) : String :=
  key.expr ++ Text.ofOption key.direction (fun d => suffix d.token) ++
    Text.ofOption key.nulls fun n => suffix n.token

/-- The layout of a key, piece by piece as its text. -/
def layout (key : OrderKey Layout) : Layout :=
  key.expr ++ Layout.ofOption key.direction (fun d => .token (suffix d.token)) ++
    Layout.ofOption key.nulls fun n => .token (suffix n.token)

/-- Keys with commas between them, behind an introduction; nothing if there are no keys. -/
def clauseText (intro : String) (keys : List (OrderKey String)) : String :=
  if keys.isEmpty then "" else intro ++ Text.commaSeparated (keys.map text)

/-- The layout of keys behind an introduction, empty if there are no keys. -/
def clauseLayout (intro : String) (keys : List (OrderKey Layout)) : Layout :=
  if keys.isEmpty then .empty else .token intro ++ Layout.commaSeparated (keys.map layout)

/-- The JSON form, with `null` for a direction or a placement that is not given. -/
def encode (key : OrderKey Json) : Json :=
  .obj [("expr", key.expr), ("direction", .ofOption (key.direction.map Direction.encode)),
    ("nulls", .ofOption (key.nulls.map NullPlacement.encode))]

/-- Reads a key, of which only the expression is required. -/
def decode (expr : Decoder ε) : Decoder (OrderKey ε) :=
  Decoder.record ["expr", "direction", "nulls"] fun given => do
    return ⟨← given.required "expr" expr, ← given.optional "direction" Direction.decode,
      ← given.optional "nulls" NullPlacement.decode⟩

end OrderKey

end SqlText
