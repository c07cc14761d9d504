import SqlText.Json.Decoder
import SqlText.Layout
import SqlText.Text

/-!
# References to tables and columns

A table is named by its schema and its own name, of which empty parts are skipped, and may have an
alias. A column may be bound to a table; it is then written behind the table's qualifier, which is
the alias if there is one and the full name otherwise. An empty qualifier is left out together with
its dot.
-/

namespace SqlText

/-! ## Aliases -/

/-- Another name for a table or a select item. -/
structure Alias where
  name : String
  /-- Whether the word `AS` is written. -/
  useAs : Bool
  deriving DecidableEq

namespace Alias

/-- An alias written with `AS`. -/
def ofName (name : String) : Alias := ⟨name, true⟩

/-- What stands between a thing and its alias. -/
def joiner (label : Alias) : String :=
  if label.useAs then " AS " else " "

/-- The alias as it follows the thing that it names. -/
def text (label : Alias) : String :=
  label.joiner ++ label.name

/-- The layout of an alias, its name verbatim. -/
def layout (label : Alias) : Layout :=
  .token label.joiner ++ .verbatim label.name

/-- The JSON form: a record of the name and the use of `AS`. -/
def encode (label : Alias) : Json :=
  .obj [("name", .str label.name), ("use_as", .bool label.useAs)]

/-- Reads an alias, of which both fields are required. -/
def decode : Decoder Alias :=
  Decoder.record ["name", "use_as"] fun given => do
    return ⟨← given.required "name" Decoder.string, ← given.required "use_as" Decoder.bool⟩

end Alias

/-! ## Tables -/

/-- A table. -/
structure Table where
  schema : Option String
  name : String
  /-- The alias, if the table has one. -/
  label : Option Alias
  deriving DecidableEq

namespace Table

/-- A table without schema and alias. -/
def ofName (name : String) : Table := ⟨none, name, none⟩

instance : Inhabited Table := ⟨ofName ""⟩

/-- Sets the schema. -/
def withSchema (table : Table) (schema : String) : Table :=
  { table with schema := some schema }

/-- Sets the alias. -/
def withAlias (table : Table) (label : Alias) : Table :=
  { table with label := some label }

/-- The layout of schema and name: joined by a dot if both are there, else the one that is. -/
def fullNameLayout (table : Table) : Layout :=
  match table.schema with
  | none => .verbatim table.name
  | some schema =>
    if table.name = "" then .verbatim schema
    else if schema = "" then .verbatim table.name
    else .verbatim schema ++ .token "." ++ .verbatim table.name

/-- Schema and name: joined by a dot if neither is empty, else the one that is not. -/
def fullName (table : Table) : String :=
  match table.schema with
  | none => table.name
  | some schema =>
    if table.name = "" then schema
    else if schema = "" then table.name
    else schema ++ "." ++ table.name

/-- What a table contributes to the names of its columns: its alias, else its full name. -/
def qualifier (table : Table) : String :=
  match table.label with
  | some label => label.name
  | none => table.fullName

/-- The layout of the qualifier, each of its parts verbatim. -/
def qualifierLayout (table : Table) : Layout :=
  match table.label with
  | some label => .verbatim label.name
  | none => table.fullNameLayout

/-- A table where it is introduced: its full name and its alias. -/
def text (table : Table) : String :=
  table.fullName ++ Text.ofOption table.label Alias.text

/-- The layout of a table where it is introduced, piece by piece as its text. -/
def layout (table : Table) : Layout :=
  table.fullNameLayout ++ Layout.ofOption table.label Alias.layout

/-- The JSON form, with `null` for a missing schema or alias. -/
def encode (table : Table) : Json :=
  .obj [("schema", .ofText? table.schema), ("name", .str table.name),
    ("alias", .ofOption (table.label.map Alias.encode))]

/-- Reads a table, of which only the name is required. -/
def decode : Decoder Table :=
  Decoder.record ["schema", "name", "alias"] fun given => do
    return ⟨← given.optional "schema" Decoder.string, ← given.required "name" Decoder.string,
      ← given.optional "alias" Alias.decode⟩

end Table

/-! ## Columns -/

/-- A column, perhaps bound to its table. -/
structure Column where
  table : Option Table
  name : String
  deriving DecidableEq

namespace Column

/-- A column that is bound to no table. -/
def ofName (name : String) : Column := ⟨none, name⟩

/-- Binds the column to a table. -/
def withTable (column : Column) (table : Table) : Column :=
  { column with table := some table }

/-- A column behind the qualifier of its table, unless that is empty. -/
def text (column : Column) : String :=
  match column.table with
  | none => column.name
  | some table =>
    if table.qualifier = "" then column.name else table.qualifier ++ "." ++ column.name

/-- The layout of a column: the dot is left out together with an empty qualifier. -/
def layout (column : Column) : Layout :=
  match column.table with
  | none => .verbatim column.name
  | some table =>
    if table.qualifier = "" then .verbatim column.name
    else table.qualifierLayout ++ .token "." ++ .verbatim column.name

/-- The JSON form, with `null` for a column that is bound to no table. -/
def encode (column : Column) : Json :=
  .obj [("table", .ofOption (column.table.map Table.encode)), ("name", .str column.name)]

/-- Reads a column, of which only the name is required. -/
def decode : Decoder Column :=
  Decoder.record ["table", "name"] fun given => do
    return ⟨← given.optional "table" Table.decode, ← given.required "name" Decoder.string⟩

end Column

end SqlText
