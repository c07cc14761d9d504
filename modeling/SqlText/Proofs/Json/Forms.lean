import Mathlib.Data.List.Forall2
import SqlText.Expr.Json
import SqlText.Proofs.Temporal.Spelling

/-!
# The JSON forms of trees

Which JSON values stand for a tree, said by rules and without reading any. The rules for records,
tagged values and lists are stated once, as inductive predicates on JSON values; each type of tree
then lists its fields or its variants. `Expr.forms` goes through a whole tree from the leaves up.

A record is an object or an array. In an object the members may stand in any order and there may be
others; a field that is absent from the tree may be `null` or missing. An array holds all fields in
their order and nothing else. A variant without payload is its tag, alone or with `null`; a variant
with a payload is an object with the tag as its only key. Named fields of a variant are given as an
object only.
-/

namespace SqlText

/-- A set of JSON values : the forms in which something may be given. -/
abbrev Forms := Json → Prop

/-! ## Rules -/

/-- A field of a record, with the forms of its value. -/
inductive Slot where
  | required (name : String) (value : Forms)
  | optional (name : String) (value : Option Forms)

namespace Slot

/-- The key of a field in an object; in an array only the order counts. -/
def name : Slot → String
  | required name _ => name
  | optional name _ => name

/-- What may be given for a field; `none` if the field is not mentioned. -/
inductive Admits : Slot → Option Json → Prop
  | given {name : String} {value : Forms} {j : Json} (h : value j) :
    Admits (required name value) (some j)
  | missing {name : String} : Admits (optional name none) none
  | null {name : String} : Admits (optional name none) (some .null)
  | present {name : String} {value : Forms} {j : Json} (h : value j) :
    Admits (optional name (some value)) (some j)

end Slot

/-- A tag, with the forms of its payload if it has one. -/
inductive Variant where
  | bare (tag : String)
  | holding (tag : String) (payload : Forms)

namespace Variant

/-- The tag under which a variant is given. -/
def tag : Variant → String
  | bare tag => tag
  | holding tag _ => tag

/-- What may be given with a tag; `none` if the tag stands alone. -/
inductive Admits : Variant → Option Json → Prop
  | alone {tag : String} : Admits (bare tag) none
  | null {tag : String} : Admits (bare tag) (some .null)
  | payload {tag : String} {payload : Forms} {j : Json} (h : payload j) :
    Admits (holding tag payload) (some j)

end Variant

namespace Forms

/-- A string is given as this text and in no other way. -/
def string (text : String) : Forms := (· = .str text)

/-- A truth value is given as such, never as a number. -/
def bool (value : Bool) : Forms := (· = .bool value)

/-- A number of 16 bits is given as an integer. -/
def word16 (n : UInt16) : Forms := (· = .int n.toNat)

/-- A number of 32 bits is given as an integer. -/
def word32 (n : UInt32) : Forms := (· = .int n.toNat)

/-- A text that spells something. -/
inductive Spelled (spelling : List Char → Prop) : Forms
  | str {text : String} (h : spelling text.toList) : Spelled spelling (.str text)

/-- A list is an array of its items. -/
inductive Items (items : List Forms) : Forms
  | arr {values : List Json} (h : List.Forall₂ (fun item j => item j) items values) :
    Items items (.arr values)

/-- A payload that may be absent is then `null`. -/
inductive Nullable : Option Forms → Forms
  | null : Nullable none .null
  | value {value : Forms} {j : Json} (h : value j) : Nullable (some value) j

/-- Named fields in an object : of members with one key, the first counts. -/
inductive Object (slots : List Slot) : Forms
  | obj {members : List (String × Json)}
    (h : ∀ slot ∈ slots, slot.Admits (members.lookup slot.name)) : Object slots (.obj members)

/-- A record is an object of its fields, or an array of them in their order. -/
inductive Record (slots : List Slot) : Forms
  | object {j : Json} (h : Object slots j) : Record slots j
  | array {values : List Json}
    (h : List.Forall₂ (fun slot j => slot.Admits (some j)) slots values) :
    Record slots (.arr values)

/-- A tagged value is its tag, or an object whose only key is the tag. -/
inductive Tagged (variant : Variant) : Forms
  | text (h : variant.Admits none) : Tagged variant (.str variant.tag)
  | object {j : Json} (h : variant.Admits (some j)) : Tagged variant (.obj [(variant.tag, j)])

/-- One of finitely many values is given by its tag. -/
def tag (name : String) : Forms := Tagged (.bare name)

end Forms

/-! ## Operators -/

/-- A pattern operator is given by its tag. -/
def PatternOp.forms (op : PatternOp) : Forms := .tag op.tag

/-- A word for matching is given by its tag. -/
def RegexpWord.forms (op : RegexpWord) : Forms := .tag op.tag

/-- A document operator is given by its tag. -/
def DocumentOp.forms (op : DocumentOp) : Forms := .tag op.tag

namespace BinaryOp

/-- The operators of a family stand under one tag, all others have a tag of their own. -/
def variant : BinaryOp → Variant
  | add => .bare "Add"
  | subtract => .bare "Subtract"
  | multiply => .bare "Multiply"
  | divide => .bare "Divide"
  | modulo => .bare "Modulo"
  | and => .bare "And"
  | or => .bare "Or"
  | concat => .bare "Concat"
  | bitwiseAnd => .bare "BitwiseAnd"
  | bitwiseOr => .bare "BitwiseOr"
  | bitwiseXor => .bare "BitwiseXor"
  | leftShift => .bare "LeftShift"
  | rightShift => .bare "RightShift"
  | pattern op => .holding "Regexp" op.forms
  | regexp op => .holding "MySqlRegexp" op.forms
  | document op => .holding "Json" op.forms

/-- A binary operator is given under its tag. -/
def forms (op : BinaryOp) : Forms := .Tagged op.variant

end BinaryOp

/-- A spelling of inequality is given by its tag. -/
def InequalitySign.forms (sign : InequalitySign) : Forms := .tag sign.tag

namespace ComparisonOp

/-- Only inequality has a payload, its spelling. -/
def variant : ComparisonOp → Variant
  | equals => .bare "Equals"
  | notEquals sign => .holding "NotEquals" sign.forms
  | greater => .bare "GreaterThan"
  | greaterOrEqual => .bare "GreaterThanOrEqual"
  | less => .bare "LessThan"
  | lessOrEqual => .bare "LessThanOrEqual"
  | fullTextMatch => .bare "Matches"

/-- A comparison is given under its tag. -/
def forms (op : ComparisonOp) : Forms := .Tagged op.variant

end ComparisonOp

/-- A join is given by its tag, and so is the absence of one. -/
def OuterJoin.forms (join : OuterJoin) : Forms := .tag join.tag

/-- A sign is given by its tag. -/
def Sign.forms (sign : Sign) : Forms := .tag sign.tag

/-- A word for an existential comparison is given by its tag. -/
def AnyWord.forms (word : AnyWord) : Forms := .tag word.tag

/-- A quantifier is given by its tag. -/
def SetQuantifier.forms (quantifier : SetQuantifier) : Forms := .tag quantifier.tag

/-- The kind of an analytic function is given by its tag. -/
def AnalyticKind.forms (kind : AnalyticKind) : Forms := .tag kind.tag

/-- The unit of a frame is given by its tag. -/
def FrameUnit.forms (unit : FrameUnit) : Forms := .tag unit.tag

/-- A direction is given by its tag. -/
def Direction.forms (direction : Direction) : Forms := .tag direction.tag

/-- A place for nulls is given by its tag. -/
def NullPlacement.forms (placement : NullPlacement) : Forms := .tag placement.tag

/-- A set operator is given by its tag. -/
def SetOp.forms (op : SetOp) : Forms := .tag op.tag

/-- A word in front of a datetime literal is given by its tag. -/
def DateTimeWord.forms (word : DateTimeWord) : Forms := .tag word.tag

/-! ## Leaves of the tree -/

namespace Alias

/-- An alias has a name and says whether `AS` is written. -/
def slots (label : Alias) : List Slot :=
  [.required "name" (.string label.name), .required "use_as" (.bool label.useAs)]

/-- An alias is a record. -/
def forms (label : Alias) : Forms := .Record label.slots

end Alias

namespace Table

/-- Of a table the schema and the alias may be absent. -/
def slots (table : Table) : List Slot :=
  [.optional "schema" (table.schema.map .string), .required "name" (.string table.name),
    .optional "alias" (table.label.map Alias.forms)]

/-- A table is a record. -/
def forms (table : Table) : Forms := .Record table.slots

end Table

namespace Column

/-- A column may be bound to a table. -/
def slots (column : Column) : List Slot :=
  [.optional "table" (column.table.map Table.forms), .required "name" (.string column.name)]

/-- A column is a record. -/
def forms (column : Column) : Forms := .Record column.slots

end Column

namespace PathStep

/-- A step has an operator and a key, both required. -/
def slots (step : PathStep) : List Slot :=
  [.required "operator" step.op.forms, .required "key" (.string step.key)]

/-- A step of a path is a record. -/
def forms (step : PathStep) : Forms := .Record step.slots

end PathStep

namespace Hint

/-- A hint has its content and the kind of its comment, both required. -/
def slots (hint : Hint) : List Slot :=
  [.required "value" (.string hint.value), .required "single_line" (.bool hint.singleLine)]

/-- A hint is a record. -/
def forms (hint : Hint) : Forms := .Record hint.slots

end Hint

namespace QuotedText

/-- A quoted text may have a marker. -/
def slots (q : QuotedText) : List Slot :=
  [.optional "prefix" (q.marker.map .string), .required "value" (.string q.value)]

/-- A quoted text is a record. -/
def forms (q : QuotedText) : Forms := .Record q.slots

end QuotedText

namespace Literal

/-- Temporal values are given by any of their spellings, and other literals by what they hold. -/
def variant : Literal → Variant
  | long spelling => .holding "Long" (.string spelling)
  | double spelling => .holding "Double" (.string spelling)
  | hex spelling => .holding "Hex" (.string spelling)
  | string value => .holding "String" value.forms
  | date value => .holding "Date" (.Spelled value.Spelling)
  | time value => .holding "Time" (.Spelled value.Spelling)
  | timestamp value => .holding "Timestamp" (.Spelled value.Spelling)
  | dateTime word value =>
    .holding "DateTime"
      (.Object [.required "kind" word.forms, .required "value" (.string value)])
  | null => .bare "Null"

/-- A literal is given under its tag. -/
def forms (l : Literal) : Forms := .Tagged l.variant

end Literal

namespace Parameter

/-- An index may be `null` or missing where it is a field, not where it is the payload itself. -/
def variant : Parameter → Variant
  | positional index =>
    .holding "Positional" (.Object [.optional "index" (index.map .word32)])
  | named name typeSuffix =>
    .holding "Named"
      (.Object [.required "name" (.string name), .optional "type_suffix" (typeSuffix.map .string)])
  | numeric index => .holding "NumericBind" (.word32 index)
  | markup typeSuffix =>
    .holding "Markup" (.Object [.optional "type_suffix" (typeSuffix.map .string)])

/-- A parameter is given under its tag. -/
def forms (p : Parameter) : Forms := .Tagged p.variant

end Parameter

namespace DataType

/-- The named fields of a type with precision and scale. -/
def precisionSlots (precision scale : Option UInt16) : List Slot :=
  [.optional "precision" (precision.map .word16), .optional "scale" (scale.map .word16)]

/-- A length may be `null` but not missing, precision and scale may be either. -/
def variant : DataType → Variant
  | smallint => .bare "Smallint"
  | integer => .bare "Integer"
  | bigint => .bare "Bigint"
  | real => .bare "Real"
  | double => .bare "Double"
  | decimal precision scale => .holding "Decimal" (.Object (precisionSlots precision scale))
  | numeric precision scale => .holding "Numeric" (.Object (precisionSlots precision scale))
  | char length => .holding "Char" (.Nullable (length.map .word32))
  | varchar length => .holding "Varchar" (.Nullable (length.map .word32))
  | text => .bare "Text"
  | blob => .bare "Blob"
  | varbinary length => .holding "Varbinary" (.Nullable (length.map .word32))
  | date => .bare "Date"
  | time => .bare "Time"
  | timestamp => .bare "Timestamp"
  | interval => .bare "Interval"
  | boolean => .bare "Boolean"
  | json => .bare "Json"
  | uuid => .bare "Uuid"
  | array element => .holding "Array" (.Tagged element.variant)
  | custom name => .holding "Custom" (.string name)

/-- A data type is given under its tag. -/
def forms (type : DataType) : Forms := .Tagged type.variant

end DataType

/-! ## Clauses

The forms of a clause, given those of its sub-expressions. -/

namespace Arguments

/-- The expressions are the only field. -/
def slots (arguments : List Forms) : List Slot :=
  [.required "expressions" (.Items arguments)]

/-- A list of arguments is a record, not a bare array. -/
def forms (arguments : List Forms) : Forms := .Record (slots arguments)

end Arguments

namespace OrderKey

/-- Of a key only the expression is required. -/
def slots (key : OrderKey Forms) : List Slot :=
  [.required "expr" key.expr, .optional "direction" (key.direction.map Direction.forms),
    .optional "nulls" (key.nulls.map NullPlacement.forms)]

/-- An ordering key is a record. -/
def forms (key : OrderKey Forms) : Forms := .Record key.slots

end OrderKey

namespace Keep

/-- All fields of a keep clause are required, the ordering even if it is empty. -/
def slots (keep : Keep Forms) : List Slot :=
  [.required "name" (.string keep.name), .required "first" (.bool keep.first),
    .required "order_by" (.Items (keep.orderBy.map OrderKey.forms))]

/-- A keep clause is a record. -/
def forms (keep : Keep Forms) : Forms := .Record keep.slots

end Keep

namespace FrameBound

/-- The offset of a bound is the payload of its tag. -/
def variant : FrameBound Forms → Variant
  | unboundedPreceding => .bare "UnboundedPreceding"
  | unboundedFollowing => .bare "UnboundedFollowing"
  | currentRow => .bare "CurrentRow"
  | preceding offset => .holding "Preceding" offset
  | following offset => .holding "Following" offset

/-- A bound is given under its tag. -/
def forms (bound : FrameBound Forms) : Forms := .Tagged bound.variant

end FrameBound

namespace FrameExtent

/-- One bound is the payload itself, two bounds are named fields. -/
def variant : FrameExtent Forms → Variant
  | single bound => .holding "Single" bound.forms
  | between start stop =>
    .holding "Between" (.Object [.required "start" start.forms, .required "end" stop.forms])

/-- The extent of a frame is given under its tag. -/
def forms (extent : FrameExtent Forms) : Forms := .Tagged extent.variant

end FrameExtent

namespace Frame

/-- A frame has a unit and an extent, both required. -/
def slots (frame : Frame Forms) : List Slot :=
  [.required "kind" frame.unit.forms, .required "frame" frame.extent.forms]

/-- A frame is a record. -/
def forms (frame : Frame Forms) : Forms := .Record frame.slots

end Frame

namespace When

/-- A branch has a condition and a result, both required. -/
def slots (branch : When Forms) : List Slot :=
  [.required "when" branch.condition, .required "then" branch.result]

/-- A branch is a record. -/
def forms (branch : When Forms) : Forms := .Record branch.slots

end When

namespace Case

/-- The operand and the alternative of a case expression may be absent. -/
def slots (c : Case Forms) : List Slot :=
  [.optional "switch" c.operand, .required "when_clauses" (.Items (c.branches.map When.forms)),
    .optional "else_expr" c.otherwise]

/-- A case expression is a record. -/
def forms (c : Case Forms) : Forms := .Record c.slots

end Case

namespace Call

/-- The name and the two switches of a call are required, everything else may be absent. -/
def slots (call : Call Forms) : List Slot :=
  [.required "name" (.string call.name),
    .optional "parameters" (call.arguments.map Arguments.forms),
    .optional "quantifier" (call.quantifier.map SetQuantifier.forms),
    .required "all_columns" (.bool call.allColumns), .required "escaped" (.bool call.escaped),
    .optional "attribute" (call.field.map .string), .optional "keep" (call.keep.map Keep.forms)]

/-- A call is a record. -/
def forms (call : Call Forms) : Forms := .Record call.slots

end Call

namespace Analytic

/-- The arguments, the keep clause and the frame of an analytic function may be absent. -/
def slots (a : Analytic Forms) : List Slot :=
  [.required "name" (.string a.name), .required "kind" a.kind.forms,
    .optional "expression" a.argument, .optional "offset" a.offset,
    .optional "default_value" a.defaultValue, .required "all_columns" (.bool a.allColumns),
    .required "distinct" (.bool a.distinct), .required "ignore_nulls" (.bool a.ignoreNulls),
    .optional "keep" (a.keep.map Keep.forms), .required "partition_by" (.Items a.partitionBy),
    .required "order_by" (.Items (a.orderBy.map OrderKey.forms)),
    .optional "window" (a.frame.map Frame.forms)]

/-- An analytic function is a record. -/
def forms (a : Analytic Forms) : Forms := .Record a.slots

end Analytic

namespace GroupConcat

/-- Of a concatenation only the separator may be absent. -/
def slots (g : GroupConcat Forms) : List Slot :=
  [.required "distinct" (.bool g.distinct),
    .required "expressions" (Arguments.forms g.arguments),
    .required "order_by" (.Items (g.orderBy.map OrderKey.forms)),
    .optional "separator" (g.separator.map .string)]

/-- A concatenation is a record. -/
def forms (g : GroupConcat Forms) : Forms := .Record g.slots

end GroupConcat

/-! ## Queries -/

namespace SelectItem

/-- An expression with its alias is given by named fields. -/
def variant : SelectItem Forms → Variant
  | allColumns => .bare "AllColumns"
  | tableColumns table => .holding "AllTableColumns" table.forms
  | expr e label =>
    .holding "Expr" (.Object [.required "expr" e, .optional "alias" (label.map Alias.forms)])

/-- An item of a select list is given under its tag. -/
def forms (item : SelectItem Forms) : Forms := .Tagged item.variant

end SelectItem

namespace Select

/-- The lists of a select are required even if they are empty, its single clauses are not. -/
def slots (select : Select Forms) : List Slot :=
  [.required "distinct" (.bool select.distinct),
    .required "items" (.Items (select.items.map SelectItem.forms)),
    .optional "from" (select.source.map Table.forms), .optional "where_clause" select.condition,
    .required "group_by" (.Items select.groupBy), .optional "having" select.having,
    .required "order_by" (.Items (select.orderBy.map OrderKey.forms)),
    .optional "limit" select.limit]

/-- A select is a record. -/
def forms (select : Select Forms) : Forms := .Record select.slots

end Select

namespace Query

/-- The operands of a set operator are queries again, given as named fields. -/
def variant : Query Forms → Variant
  | plain select => .holding "Plain" select.forms
  | compound op all left right =>
    .holding "SetOperation"
      (.Object [.required "op" op.forms, .required "all" (.bool all),
        .required "left" (.Tagged left.variant), .required "right" (.Tagged right.variant)])

/-- A query is given under its tag. -/
def forms (query : Query Forms) : Forms := .Tagged query.variant

end Query

namespace CommonTable

/-- All fields of a common table are required, the columns even if there are none. -/
def slots (table : CommonTable Forms) : List Slot :=
  [.required "name" (.string table.name), .required "columns" (.Items (table.columns.map .string)),
    .required "body" table.query.forms]

/-- A common table is a record. -/
def forms (table : CommonTable Forms) : Forms := .Record table.slots

end CommonTable

namespace SubQuery

/-- All fields of a sub-query are required. -/
def slots (sub : SubQuery Forms) : List Slot :=
  [.required "body" sub.query.forms,
    .required "with_items" (.Items (sub.commonTables.map CommonTable.forms)),
    .required "use_brackets" (.bool sub.brackets)]

/-- A sub-query is a record. -/
def forms (sub : SubQuery Forms) : Forms := .Record sub.slots

end SubQuery

namespace Items

/-- The rows are an array, and each of them is a record as a list of arguments is. -/
def variant : Items Forms → Variant
  | list values => .holding "Expressions" (Arguments.forms values)
  | rows lists => .holding "Multi" (.Items (lists.map Arguments.forms))
  | query sub => .holding "SubSelect" sub.forms

/-- Items are given under the tag of their kind. -/
def forms (items : Items Forms) : Forms := .Tagged items.variant

end Items

namespace Member

/-- A single expression and several items have different tags. -/
def variant : Member Forms → Variant
  | expr e => .holding "Expr" e
  | items is => .holding "Items" is.forms

/-- The left side of a membership test is given under its tag. -/
def forms (member : Member Forms) : Forms := .Tagged member.variant

end Member

/-! ## Expressions -/

namespace Node

/-- The kind of a node with its fields, given the forms of its sub-expressions. -/
def variant : Node Forms → Variant
  | binary left op right negated =>
    .holding "Binary"
      (.Object [.required "left" left, .required "op" op.forms, .required "right" right,
        .required "not" (.bool negated)])
  | comparison left op right negated join =>
    .holding "Comparison"
      (.Object [.required "left" left, .required "op" op.forms, .required "right" right,
        .required "not" (.bool negated), .required "oracle_join" join.forms])
  | like left right negated ignoreCase escape =>
    .holding "Like"
      (.Object [.required "left" left, .required "right" right, .required "not" (.bool negated),
        .required "case_insensitive" (.bool ignoreCase),
        .optional "escape" (escape.map .string)])
  | between expr start stop negated =>
    .holding "Between"
      (.Object [.required "expr" expr, .required "start" start, .required "end" stop,
        .required "not" (.bool negated)])
  | membership member items negated join =>
    .holding "In"
      (.Object [.required "left" member.forms, .required "right" items.forms,
        .required "not" (.bool negated), .required "oracle_join" join.forms])
  | isNull expr negated oneWord =>
    .holding "IsNull"
      (.Object [.required "expr" expr, .required "not" (.bool negated),
        .required "use_isnull" (.bool oneWord)])
  | existence expr negated =>
    .holding "Exists" (.Object [.required "expr" expr, .required "not" (.bool negated)])
  | not expr => .holding "Not" expr
  | signed sign expr =>
    .holding "Signed" (.Object [.required "sign" sign.forms, .required "expr" expr])
  | brackets expr negated =>
    .holding "Parenthesis" (.Object [.required "expr" expr, .required "not" (.bool negated)])
  | case c => .holding "Case" c.forms
  | call c => .holding "Function" c.forms
  | analytic a => .holding "Analytic" a.forms
  | groupConcat g => .holding "GroupConcat" g.forms
  | cast expr type keyword =>
    .holding "Cast"
      (.Object [.required "expr" expr, .required "data_type" type.forms,
        .required "use_cast_keyword" (.bool keyword)])
  | extract field expr =>
    .holding "Extract" (.Object [.required "field" (.string field), .required "expr" expr])
  | interval amount unit =>
    .holding "Interval"
      (.Object [.required "parameter" (.string amount),
        .optional "interval_type" (unit.map .string)])
  | row name elements =>
    .holding "Row"
      (.Object [.optional "name" (name.map .string), .required "exprs" (.Items elements)])
  | values elements => .holding "ValueList" (Arguments.forms elements)
  | column c => .holding "Column" c.forms
  | document c path =>
    .holding "Json"
      (.Object [.required "column" c.forms, .required "path" (.Items (path.map PathStep.forms))])
  | literal l => .holding "Literal" l.forms
  | parameter p => .holding "Parameter" p.forms
  | sessionVariable name system =>
    .holding "UserVariable"
      (.Object [.required "name" (.string name), .required "double_at" (.bool system)])
  | timeKey word => .holding "TimeKey" (.string word)
  | subQuery query => .holding "SubSelect" query.forms
  | allOf query => .holding "AllComparison" query.forms
  | anyOf word query =>
    .holding "AnyComparison"
      (.Object [.required "kind" word.forms, .required "sub_select" query.forms])
  | hierarchical start connect noCycle =>
    .holding "Hierarchical"
      (.Object [.optional "start_with" start, .required "connect_by" connect,
        .required "no_cycle" (.bool noCycle)])
  | hint h => .holding "Hint" h.forms

/-- A node is given under the tag of its kind. -/
def forms (n : Node Forms) : Forms := .Tagged n.variant

end Node

namespace Expr

/-- The forms of an expression. -/
def forms : Expr → Forms :=
  fold Node.forms

/-- The forms of a tree are its root's rule applied to the forms of the parts. -/
theorem forms_node (n : Node Expr) : (node n).forms = (n.map forms).forms :=
  fold_node Node.forms n

end Expr

end SqlText
