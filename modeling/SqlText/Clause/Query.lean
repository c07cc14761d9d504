import SqlText.Clause.OrderKey
import SqlText.Reference

/-!
# Queries inside expressions

Selects, their combination by set operators, common tables, and queries used as expressions. Set
operators are written between their operands without brackets, so the text does not tell how they
are grouped.

A query is laid out as a `Body`, which the layout of a sub-query hands to the query renderer.
-/

namespace SqlText

/-- Operators between two queries. -/
inductive SetOp where
  | union
  | intersect
  | except
  deriving DecidableEq

namespace SetOp

/-- The operators that a tag can name. -/
def all : List SetOp := [union, intersect, except]

/-- The word for an operator, without the word `ALL` that may follow it. -/
def token : SetOp → String
  | union => "UNION"
  | intersect => "INTERSECT"
  | except => "EXCEPT"

/-- The tag of an operator in JSON. -/
def tag : SetOp → String
  | union => "Union"
  | intersect => "Intersect"
  | except => "Except"

/-- An operator is exchanged as its bare tag. -/
def encode (op : SetOp) : Json := .str op.tag

/-- Reads an operator by its tag. -/
def decode : Decoder SetOp := Decoder.oneOf all tag

/-- The operator as it stands between two queries, with blanks around it. -/
def joiner (op : SetOp) (all : Bool) : String :=
  " " ++ op.token ++ Text.onlyIf all " ALL" ++ " "

end SetOp

/-! ## Selects -/

/-- An entry of a select list. -/
inductive SelectItem (ε : Type) where
  | allColumns
  | tableColumns (table : Table)
  | expr (expr : ε) (label : Option Alias)
  deriving DecidableEq

namespace SelectItem

variable {ε δ : Type}

/-- An expression without alias. -/
def ofExpr (e : ε) : SelectItem ε := expr e none

/-- Applies a function to the expression of an item, if it has one. -/
def map (f : ε → δ) : SelectItem ε → SelectItem δ
  | allColumns => allColumns
  | tableColumns table => tableColumns table
  | expr e label => expr (f e) label

/-- The expression of an item; no element for the two kinds of stars. -/
def children : SelectItem ε → List ε
  | expr e _ => [e]
  | _ => []

/-- All columns, the columns of one table, or an expression with its alias. -/
def text : SelectItem String → String
  | allColumns => "*"
  | tableColumns table => table.qualifier ++ ".*"
  | expr e label => e ++ Text.ofOption label Alias.text

/-- The layout of an item, piece by piece as its text. -/
def layout : SelectItem Layout → Layout
  | allColumns => .token "*"
  | tableColumns table => table.qualifierLayout ++ .token ".*"
  | expr e label => e ++ Layout.ofOption label Alias.layout

/-- The JSON form: a bare tag, a table, or an expression with its alias. -/
def encode : SelectItem Json → Json
  | allColumns => .str "AllColumns"
  | tableColumns table => .tagged "AllTableColumns" table.encode
  | expr e label =>
    .tagged "Expr" (.obj [("expr", e), ("alias", .ofOption (label.map Alias.encode))])

/-- Reads an expression and its alias given as named fields; the alias may be absent. -/
def decodeExpr (element : Decoder ε) : Decoder (SelectItem ε) :=
  Decoder.fields fun given => do
    return expr (← given.required "expr" element) (← given.optional "alias" Alias.decode)

/-- Reads an item by its tag, given a reading of its expression. -/
def decode (element : Decoder ε) : Decoder (SelectItem ε) :=
  Decoder.tagged fun tag given =>
    match tag with
    | "AllColumns" => Decoder.bare allColumns given
    | "AllTableColumns" => (Decoder.payload Table.decode given).map tableColumns
    | "Expr" => Decoder.payload (decodeExpr element) given
    | _ => none

end SelectItem

/-- A select without set operators. -/
structure Select (ε : Type) where
  distinct : Bool
  items : List (SelectItem ε)
  source : Option Table
  condition : Option ε
  groupBy : List ε
  having : Option ε
  orderBy : List (OrderKey ε)
  limit : Option ε
  deriving DecidableEq

namespace Select

variable {ε δ : Type}

/-! ### Construction -/

/-- A select of the given items and nothing else. -/
def ofItems (items : List (SelectItem ε)) : Select ε :=
  ⟨false, items, none, none, [], none, [], none⟩

instance : Inhabited (Select ε) := ⟨ofItems []⟩

/-- Sets the table to select from. -/
def withSource (select : Select ε) (table : Table) : Select ε :=
  { select with source := some table }

/-- Sets the condition on the rows. -/
def withCondition (select : Select ε) (condition : ε) : Select ε :=
  { select with condition := some condition }

/-! ### Parts -/

/-- Applies a function to the expressions of all clauses; the table holds none. -/
def map (f : ε → δ) (select : Select ε) : Select δ :=
  ⟨select.distinct, select.items.map (SelectItem.map f), select.source, select.condition.map f,
    select.groupBy.map f, select.having.map f, select.orderBy.map (OrderKey.map f),
    select.limit.map f⟩

/-- The expressions of the clauses in the order in which they are written. -/
def children (select : Select ε) : List ε :=
  select.items.flatMap SelectItem.children ++ select.condition.toList ++ select.groupBy ++
    select.having.toList ++ select.orderBy.flatMap OrderKey.children ++ select.limit.toList

/-! ### SQL text -/

/-- The grouping, if there is one. -/
def groupText (select : Select String) : String :=
  if select.groupBy.isEmpty then "" else " GROUP BY " ++ Text.commaSeparated select.groupBy

/-- The layout of the grouping, empty if there is none. -/
def groupLayout (select : Select Layout) : Layout :=
  if select.groupBy.isEmpty then .empty
  else .token " GROUP BY " ++ Layout.commaSeparated select.groupBy

/-- The clauses of a select in their fixed order; those that are not given are left out. -/
def text (select : Select String) : String :=
  "SELECT " ++ Text.onlyIf select.distinct "DISTINCT " ++
    Text.commaSeparated (select.items.map SelectItem.text) ++
    Text.ofOption select.source (fun table => " FROM " ++ table.text) ++
    Text.ofOption select.condition (fun e => " WHERE " ++ e) ++ select.groupText ++
    Text.ofOption select.having (fun e => " HAVING " ++ e) ++
    OrderKey.clauseText " ORDER BY " select.orderBy ++
    Text.ofOption select.limit (fun e => " LIMIT " ++ e)

/-- The layout of a select between its introducing word and its condition. -/
def layoutBefore (select : Select Layout) : Layout :=
  Layout.onlyIf select.distinct (.token "DISTINCT ") ++
    Layout.commaSeparated (select.items.map SelectItem.layout) ++
    Layout.ofOption select.source (fun table => .token " FROM " ++ table.layout) ++
    Layout.ofOption select.condition (fun _ => .token " WHERE ")

/-- The layout of a select behind its condition. -/
def layoutAfter (select : Select Layout) : Layout :=
  select.groupLayout ++ Layout.ofOption select.having (fun e => .token " HAVING " ++ e) ++
    OrderKey.clauseLayout " ORDER BY " select.orderBy ++
    Layout.ofOption select.limit (fun e => .token " LIMIT " ++ e)

/-- The layout of a select, with the condition kept apart. -/
def body (select : Select Layout) : Body :=
  .select select.layoutBefore (Layout.ofOption select.condition id) select.layoutAfter

/-! ### JSON -/

/-- The JSON form of a select, given those of its expressions. -/
def encode (select : Select Json) : Json :=
  .obj [("distinct", .bool select.distinct), ("items", .arr (select.items.map SelectItem.encode)),
    ("from", .ofOption (select.source.map Table.encode)),
    ("where_clause", .ofOption select.condition), ("group_by", .arr select.groupBy),
    ("having", .ofOption select.having), ("order_by", .arr (select.orderBy.map OrderKey.encode)),
    ("limit", .ofOption select.limit)]

/-- Reads a select: its lists are required, even if empty, the single clauses are not. -/
def decode (expr : Decoder ε) : Decoder (Select ε) :=
  Decoder.record
    ["distinct", "items", "from", "where_clause", "group_by", "having", "order_by", "limit"]
    fun given => do
      return ⟨← given.required "distinct" Decoder.bool,
        ← given.required "items" (Decoder.list (SelectItem.decode expr)),
        ← given.optional "from" Table.decode, ← given.optional "where_clause" expr,
        ← given.required "group_by" (Decoder.list expr), ← given.optional "having" expr,
        ← given.required "order_by" (Decoder.list (OrderKey.decode expr)),
        ← given.optional "limit" expr⟩

end Select

/-! ## Queries -/

/-- A select, or two queries combined by a set operator. -/
inductive Query (ε : Type) where
  | plain (select : Select ε)
  | compound (op : SetOp) (all : Bool) (left right : Query ε)
  deriving DecidableEq

namespace Query

variable {ε δ : Type}

/-- Applies a function inside every select of the query. -/
def map (f : ε → δ) : Query ε → Query δ
  | plain select => plain (select.map f)
  | compound op all left right => compound op all (left.map f) (right.map f)

/-- The expressions of the selects from left to right. -/
def children : Query ε → List ε
  | plain select => select.children
  | compound _ _ left right => left.children ++ right.children

/-- The selects from left to right, with the set operators between them. -/
def text : Query String → String
  | plain select => select.text
  | compound op all left right => left.text ++ op.joiner all ++ right.text

/-- The layout of a query. -/
def body : Query Layout → Body
  | plain select => select.body
  | compound op all left right => .compound left.body (op.joiner all) right.body

/-- The JSON form: a select, or the operator and the two queries as named fields. -/
def encode : Query Json → Json
  | plain select => .tagged "Plain" select.encode
  | compound op all left right =>
    .tagged "SetOperation"
      (.obj [("op", op.encode), ("all", .bool all), ("left", left.encode),
        ("right", right.encode)])

/-- Reads a combination of two queries, given a reading of the two. -/
def decodeCompound (self : Decoder (Query ε)) : Decoder (Query ε) :=
  Decoder.fields fun given => do
    return compound (← given.required "op" SetOp.decode) (← given.required "all" Decoder.bool)
      (← given.required "left" self) (← given.required "right" self)

/-- Reads a query, given a reading of the queries that it combines. -/
def decodeStep (expr : Decoder ε) (self : Decoder (Query ε)) : Decoder (Query ε) :=
  Decoder.tagged fun tag given =>
    match tag with
    | "Plain" => (Decoder.payload (Select.decode expr) given).map plain
    | "SetOperation" => Decoder.payload (decodeCompound self) given
    | _ => none

/-- Reads a query of any depth, given a reading of the expressions. -/
def decode (expr : Decoder ε) : Decoder (Query ε) :=
  Decoder.fix (decodeStep expr)

end Query

/-! ## Common tables and sub-queries -/

/-- A query with a name, introduced by `WITH`. -/
structure CommonTable (ε : Type) where
  name : String
  columns : List String
  query : Query ε
  deriving DecidableEq

namespace CommonTable

variable {ε δ : Type}

/-- Applies a function inside the query; the names stay. -/
def map (f : ε → δ) (table : CommonTable ε) : CommonTable δ :=
  ⟨table.name, table.columns, table.query.map f⟩

/-- The expressions of the query. -/
def children (table : CommonTable ε) : List ε :=
  table.query.children

/-- The names of the columns, if any are given. -/
def columnsText (columns : List String) : String :=
  if columns.isEmpty then "" else " (" ++ Text.commaSeparated columns ++ ")"

/-- The name, the columns and the query in brackets. -/
def text (table : CommonTable String) : String :=
  table.name ++ columnsText table.columns ++ " AS (" ++ table.query.text ++ ")"

/-- A common table is handed to the query renderer as a whole. -/
def layout (table : CommonTable Layout) : Layout :=
  .commonTable table.name table.columns table.query.body

/-- The JSON form of a common table; the list of columns is there even if it is empty. -/
def encode (table : CommonTable Json) : Json :=
  .obj [("name", .str table.name), ("columns", .arr (table.columns.map .str)),
    ("body", table.query.encode)]

/-- Reads a common table, of which all fields are required. -/
def decode (expr : Decoder ε) : Decoder (CommonTable ε) :=
  Decoder.record ["name", "columns", "body"] fun given => do
    return ⟨← given.required "name" Decoder.string,
      ← given.required "columns" (Decoder.list Decoder.string),
      ← given.required "body" (Query.decode expr)⟩

end CommonTable

/-- A query used as an expression. -/
structure SubQuery (ε : Type) where
  query : Query ε
  commonTables : List (CommonTable ε)
  brackets : Bool
  deriving DecidableEq

namespace SubQuery

variable {ε δ : Type}

/-- A query in brackets, without common tables. -/
def ofQuery (query : Query ε) : SubQuery ε := ⟨query, [], true⟩

/-- Adds a common table behind those that are there. -/
def withCommonTable (sub : SubQuery ε) (table : CommonTable ε) : SubQuery ε :=
  { sub with commonTables := sub.commonTables ++ [table] }

/-- Leaves the brackets out. -/
def withoutBrackets (sub : SubQuery ε) : SubQuery ε :=
  { sub with brackets := false }

/-- Applies a function inside the query and inside its common tables. -/
def map (f : ε → δ) (sub : SubQuery ε) : SubQuery δ :=
  ⟨sub.query.map f, sub.commonTables.map (CommonTable.map f), sub.brackets⟩

/-- The parts in the order in which they are written: common tables first. -/
def children (sub : SubQuery ε) : List ε :=
  sub.commonTables.flatMap CommonTable.children ++ sub.query.children

/-- The common tables, if there are any. -/
def withText (sub : SubQuery String) : String :=
  if sub.commonTables.isEmpty then ""
  else "WITH " ++ Text.commaSeparated (sub.commonTables.map CommonTable.text) ++ " "

/-- The layout of the common tables, empty if there are none. -/
def withLayout (sub : SubQuery Layout) : Layout :=
  if sub.commonTables.isEmpty then .empty
  else
    .token "WITH " ++ Layout.commaSeparated (sub.commonTables.map CommonTable.layout) ++ .token " "

/-- The common tables and the query, in brackets if there are any. -/
def text (sub : SubQuery String) : String :=
  Text.onlyIf sub.brackets "(" ++ sub.withText ++ sub.query.text ++ Text.onlyIf sub.brackets ")"

/-- The common tables are handed to the query renderer one by one, and then the query. -/
def layout (sub : SubQuery Layout) : Layout :=
  Layout.onlyIf sub.brackets (.token "(") ++ sub.withLayout ++ .query sub.query.body ++
    Layout.onlyIf sub.brackets (.token ")")

/-- The JSON form, in which the query comes before its common tables. -/
def encode (sub : SubQuery Json) : Json :=
  .obj [("body", sub.query.encode), ("with_items", .arr (sub.commonTables.map CommonTable.encode)),
    ("use_brackets", .bool sub.brackets)]

/-- Reads a sub-query, of which all fields are required. -/
def decode (expr : Decoder ε) : Decoder (SubQuery ε) :=
  Decoder.record ["body", "with_items", "use_brackets"] fun given => do
    return ⟨← given.required "body" (Query.decode expr),
      ← given.required "with_items" (Decoder.list (CommonTable.decode expr)),
      ← given.required "use_brackets" Decoder.bool⟩

end SubQuery

end SqlText
