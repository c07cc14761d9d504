import SqlText.Json.Decoder
import SqlText.Layout
import SqlText.Text

/-!
# Bind parameters

The places that values are bound to when a statement runs: `?`, `?3`, `:name`, `:2`. A type suffix
is written as it is.
-/

namespace SqlText

/-- A bind parameter. -/
inductive Parameter where
  | positional (index : Option UInt32)
  | named (name : String) (typeSuffix : Option String)
  | numeric (index : UInt32)
  | markup (typeSuffix : Option String)
  deriving DecidableEq

namespace Parameter

/-! ## SQL text -/

/-- A question mark or a colon, then what identifies the parameter. -/
def text : Parameter → String
  | positional index => "?" ++ Text.ofOption index fun n => toString n.toNat
  | named name typeSuffix => ":" ++ name ++ Text.ofOption typeSuffix id
  | numeric index => ":" ++ toString index.toNat
  | markup typeSuffix => "?" ++ Text.ofOption typeSuffix id

/-- The layout of a parameter; numbers are tokens, names and suffixes are verbatim. -/
def layout : Parameter → Layout
  | positional index => .token ("?" ++ Text.ofOption index fun n => toString n.toNat)
  | named name typeSuffix =>
    .token ":" ++ .verbatim name ++ Layout.ofOption typeSuffix .verbatim
  | numeric index => .token (":" ++ toString index.toNat)
  | markup typeSuffix => .token "?" ++ Layout.ofOption typeSuffix .verbatim

/-! ## JSON -/

/-- The JSON form: a numeric bind has its number under the tag, the others have named fields. -/
def encode : Parameter → Json
  | positional index =>
    .tagged "Positional" (.obj [("index", .ofNat? (index.map UInt32.toNat))])
  | named name typeSuffix =>
    .tagged "Named" (.obj [("name", .str name), ("type_suffix", .ofText? typeSuffix)])
  | numeric index => .tagged "NumericBind" (.int index.toNat)
  | markup typeSuffix => .tagged "Markup" (.obj [("type_suffix", .ofText? typeSuffix)])

/-- Reads the index of a positional parameter, which may be absent. -/
def decodePositional : Decoder Parameter :=
  Decoder.fields fun given => do
    return positional (← given.optional "index" Decoder.word32)

/-- Reads the name and the type suffix of a named parameter; the suffix may be absent. -/
def decodeNamed : Decoder Parameter :=
  Decoder.fields fun given => do
    return named (← given.required "name" Decoder.string)
      (← given.optional "type_suffix" Decoder.string)

/-- Reads the type suffix of a markup parameter, which may be absent. -/
def decodeMarkup : Decoder Parameter :=
  Decoder.fields fun given => do
    return markup (← given.optional "type_suffix" Decoder.string)

/-- Reads a parameter by its tag; an index is a number of 32 bits. -/
def decode : Decoder Parameter :=
  Decoder.tagged fun tag given =>
    match tag with
    | "Positional" => Decoder.payload decodePositional given
    | "Named" => Decoder.payload decodeNamed given
    | "NumericBind" => (Decoder.payload Decoder.word32 given).map numeric
    | "Markup" => Decoder.payload decodeMarkup given
    | _ => none

end Parameter

end SqlText
