import SqlText.Json

/-!
# Reading JSON values as typed values

A decoder accepts a JSON value or refuses it. The rules of the exchange format are stated once, in
the combinators below, and every tree type is read through them:

* a record is an object, whose unknown members are ignored, or an array that holds exactly all of
  the record's fields in declaration order;
* an optional field may be `null`, and in an object it may be absent;
* a tagged value is a text (the tag alone) or an object with exactly one member;
* named fields under a tag are given as an object only.

`Decoder.fix` ties the knot for recursive types: the reading of a value may ask for readings of its
parts, and those are shallower, so the depth of the value bounds how often it has to be unrolled.
-/

namespace SqlText

/-- A reading of JSON values as values of `α`; `none` refuses the value. -/
abbrev Decoder (α : Type) := Json → Option α

/-- The fields of a record by name; `none` where the record does not mention the field. -/
abbrev Fields := String → Option Json

namespace Decoder

variable {α : Type}

/-! ## Leaves -/

/-- Reads a text. -/
def string : Decoder String
  | .str text => some text
  | _ => none

/-- Reads a truth value. -/
def bool : Decoder Bool
  | .bool value => some value
  | _ => none

/-- Reads an integer of `lo ≤ n < hi`. -/
def intIn (lo hi : Int) : Decoder Int
  | .int n => if lo ≤ n ∧ n < hi then some n else none
  | _ => none

/-- Reads a number of `bits` bits. -/
def natOfWidth (bits : Nat) : Decoder Nat :=
  fun j => (intIn 0 (Nat.pow 2 bits) j).map Int.toNat

/-- Reads a number of 16 bits. -/
def word16 : Decoder UInt16 :=
  fun j => (natOfWidth 16 j).map Nat.toUInt16

/-- Reads a number of 32 bits. -/
def word32 : Decoder UInt32 :=
  fun j => (natOfWidth 32 j).map Nat.toUInt32

/-- Reads a signed number of 64 bits. -/
def signed64 : Decoder Int64 :=
  fun j => (intIn (-9223372036854775808) 9223372036854775808 j).map Int64.ofInt

/-! ## Containers -/

/-- Reads an array, every item by `item`. -/
def list (item : Decoder α) : Decoder (List α)
  | .arr items => items.mapM item
  | _ => none

/-- Reads `null` as absence and any other value by `value`. -/
def nullable (value : Decoder α) : Decoder (Option α)
  | .null => some none
  | j => (value j).map some

/-! ## Records -/

/-- Reads a record given as an object, or as an array of exactly the fields `names`. -/
def record (names : List String) (read : Fields → Option α) : Decoder α
  | .obj members => read fun name => members.lookup name
  | .arr items =>
    if items.length = names.length then read fun name => (names.zip items).lookup name else none
  | _ => none

/-- Reads named fields given as an object. -/
def fields (read : Fields → Option α) : Decoder α
  | .obj members => read fun name => members.lookup name
  | _ => none

/-! ## Tagged values -/

/-- Reads a tagged value: `read` sees the tag and the payload, absent under a bare tag. -/
def tagged (read : String → Option Json → Option α) : Decoder α
  | .str tag => read tag none
  | .obj [(tag, payload)] => read tag (some payload)
  | _ => none

/-- A tag without payload: none is given, or `null`. -/
def bare (value : α) : Option Json → Option α
  | none => some value
  | some .null => some value
  | some _ => none

/-- A tag with a payload, which must be given. -/
def payload (value : Decoder α) : Option Json → Option α
  | none => none
  | some j => value j

/-- Reads one of finitely many values by its tag. -/
def oneOf (values : List α) (tag : α → String) : Decoder α :=
  tagged fun name given => (values.find? fun value => tag value = name).bind fun value =>
    bare value given

/-! ## Recursion -/

/-- The reading that `step` describes in terms of the readings of shallower values. -/
def fix (step : Decoder α → Decoder α) : Decoder α :=
  fun j => Nat.repeat step (j.depth + 1) (fun _ => none) j

end Decoder

namespace Fields

variable {α : Type}

/-- A field that must be there. -/
def required (given : Fields) (name : String) (value : Decoder α) : Option α :=
  (given name).bind value

/-- A field that may be absent or `null`. -/
def optional (given : Fields) (name : String) (value : Decoder α) : Option (Option α) :=
  match given name with
  | none => some none
  | some j => Decoder.nullable value j

end Fields

end SqlText
