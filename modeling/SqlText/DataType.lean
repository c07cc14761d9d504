import SqlText.Json.Decoder
import SqlText.Layout
import SqlText.Text

/-!
# Data types

The types that a value can be cast to. A precision and a length are written in brackets if they are
given; a scale is written only behind a precision. A type outside the list is given by its text.
-/

namespace SqlText

/-- A target of a cast. -/
inductive DataType where
  | smallint
  | integer
  | bigint
  | real
  | double
  | decimal (precision scale : Option UInt16)
  | numeric (precision scale : Option UInt16)
  | char (length : Option UInt32)
  | varchar (length : Option UInt32)
  | text
  | blob
  | varbinary (length : Option UInt32)
  | date
  | time
  | timestamp
  | interval
  | boolean
  | json
  | uuid
  | array (element : DataType)
  | custom (name : String)
  deriving DecidableEq

namespace DataType

/-! ## SQL text -/

/-- A type name with its precision and scale. -/
def withPrecision (name : String) : Option UInt16 → Option UInt16 → String
  | some precision, some scale =>
    name ++ "(" ++ toString precision.toNat ++ ", " ++ toString scale.toNat ++ ")"
  | some precision, none => name ++ "(" ++ toString precision.toNat ++ ")"
  | none, _ => name

/-- A type name with its length. -/
def withLength (name : String) : Option UInt32 → String
  | some length => name ++ "(" ++ toString length.toNat ++ ")"
  | none => name

/-- The SQL text of a type. -/
def sql : DataType → String
  | smallint => "SMALLINT"
  | integer => "INTEGER"
  | bigint => "BIGINT"
  | real => "REAL"
  | double => "DOUBLE PRECISION"
  | decimal precision scale => withPrecision "DECIMAL" precision scale
  | numeric precision scale => withPrecision "NUMERIC" precision scale
  | char length => withLength "CHAR" length
  | varchar length => withLength "VARCHAR" length
  | text => "TEXT"
  | blob => "BLOB"
  | varbinary length => withLength "VARBINARY" length
  | date => "DATE"
  | time => "TIME"
  | timestamp => "TIMESTAMP"
  | interval => "INTERVAL"
  | boolean => "BOOLEAN"
  | json => "JSON"
  | uuid => "UUID"
  | array element => element.sql ++ "[]"
  | custom name => name

/-- The layout of a type: only the name of a custom type comes from the tree. -/
def layout : DataType → Layout
  | array element => element.layout ++ .token "[]"
  | custom name => .verbatim name
  | type => .token type.sql

/-! ## JSON -/

/-- Precision and scale as named fields. -/
def encodePrecision (precision scale : Option UInt16) : Json :=
  .obj [("precision", .ofNat? (precision.map UInt16.toNat)),
    ("scale", .ofNat? (scale.map UInt16.toNat))]

/-- The JSON form: a bare tag, or a tag with the sizes, the element or the name of the type. -/
def encode : DataType → Json
  | smallint => .str "Smallint"
  | integer => .str "Integer"
  | bigint => .str "Bigint"
  | real => .str "Real"
  | double => .str "Double"
  | decimal precision scale => .tagged "Decimal" (encodePrecision precision scale)
  | numeric precision scale => .tagged "Numeric" (encodePrecision precision scale)
  | char length => .tagged "Char" (.ofNat? (length.map UInt32.toNat))
  | varchar length => .tagged "Varchar" (.ofNat? (length.map UInt32.toNat))
  | text => .str "Text"
  | blob => .str "Blob"
  | varbinary length => .tagged "Varbinary" (.ofNat? (length.map UInt32.toNat))
  | date => .str "Date"
  | time => .str "Time"
  | timestamp => .str "Timestamp"
  | interval => .str "Interval"
  | boolean => .str "Boolean"
  | json => .str "Json"
  | uuid => .str "Uuid"
  | array element => .tagged "Array" element.encode
  | custom name => .tagged "Custom" (.str name)

/-- Reads precision and scale given as named fields. -/
def decodePrecision : Decoder (Option UInt16 × Option UInt16) :=
  Decoder.fields fun given => do
    return (← given.optional "precision" Decoder.word16, ← given.optional "scale" Decoder.word16)

/-- Reads a type, given a reading of the element types of arrays. -/
def decodeStep (self : Decoder DataType) : Decoder DataType :=
  Decoder.tagged fun tag given =>
    match tag with
    | "Smallint" => Decoder.bare smallint given
    | "Integer" => Decoder.bare integer given
    | "Bigint" => Decoder.bare bigint given
    | "Real" => Decoder.bare real given
    | "Double" => Decoder.bare double given
    | "Decimal" => (Decoder.payload decodePrecision given).map fun (p, s) => decimal p s
    | "Numeric" => (Decoder.payload decodePrecision given).map fun (p, s) => numeric p s
    | "Char" => (Decoder.payload (Decoder.nullable Decoder.word32) given).map char
    | "Varchar" => (Decoder.payload (Decoder.nullable Decoder.word32) given).map varchar
    | "Text" => Decoder.bare text given
    | "Blob" => Decoder.bare blob given
    | "Varbinary" => (Decoder.payload (Decoder.nullable Decoder.word32) given).map varbinary
    | "Date" => Decoder.bare date given
    | "Time" => Decoder.bare time given
    | "Timestamp" => Decoder.bare timestamp given
    | "Interval" => Decoder.bare interval given
    | "Boolean" => Decoder.bare boolean given
    | "Json" => Decoder.bare json given
    | "Uuid" => Decoder.bare uuid given
    | "Array" => (Decoder.payload self given).map array
    | "Custom" => (Decoder.payload Decoder.string given).map custom
    | _ => none

/-- Reads a type. -/
def decode : Decoder DataType :=
  Decoder.fix decodeStep

end DataType

end SqlText
