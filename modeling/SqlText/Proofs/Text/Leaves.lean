import SqlText.Proofs.Layout.Edits
import SqlText.Proofs.Text.Pieces

/-!
# Strings in the text

The strings of a tree reach its text as they are. What else stands in the text, before, between and
behind them, is glue, and it does not depend on what the strings are. It does depend on which of
them are empty, since a table's qualifier is left out if it is empty.

`Expr.leaves` lists the strings that are written, in the order of the text. The shape of a tree has
the same fixed string in the place of all strings that are not empty (`Expr.shape`), and the glue is
a function of the shape (`Expr.glue`). The main statement is `Expr.sql_eq_alternate_glue` : the text
is the glue with the leaves between, one after another, so trees of one shape differ in their texts
only by their leaves.

The glue is read off the layout, whose pieces are words and strings (`Layout.pieces`). That the
strings of a layout are the leaves of the tree is shown clause by clause (`leaves_layout`).
-/

namespace SqlText

variable {α β : Type}

/-! ## Glue -/

namespace Piece

/-- Applies a function to a part; words stay as they are. -/
def map (f : α → β) : Piece α → Piece β
  | word text => word text
  | part a => part (f a)

/-- The words of a list of pieces, gathered between the parts. -/
def glue : List (Piece α) → List String
  | [] => [""]
  | word text :: rest => (glue rest).modifyHead (text ++ ·)
  | part _ :: rest => "" :: glue rest

/-- There is glue in front of the first part and behind every part. -/
theorem length_glue (pieces : List (Piece α)) :
    (glue pieces).length = (pieces.filterMap part?).length + 1 := by
  induction pieces with
  | nil => rfl
  | cons piece rest ih =>
    cases piece with
    | word text => simpa [glue, List.filterMap_cons, part?] using ih
    | part a => simpa [glue, List.filterMap_cons, part?] using ih

/-- The glue does not depend on the parts. -/
theorem glue_map (f : α → β) (pieces : List (Piece α)) :
    glue (pieces.map (map f)) = glue pieces := by
  induction pieces with
  | nil => rfl
  | cons piece rest ih =>
    cases piece with
    | word text => exact congrArg (List.modifyHead (text ++ ·)) ih
    | part a => exact congrArg ("" :: ·) ih

/-- Glue and parts together give the text. -/
theorem alternate_glue (pieces : List (Piece String)) :
    Text.alternate (glue pieces) (pieces.filterMap part?) = joined id pieces := by
  induction pieces with
  | nil => rfl
  | cons piece rest ih =>
    -- Words go to the first glue of the rest, which is always there.
    obtain ⟨first, firsts, hglue⟩ := List.exists_cons_of_length_eq_add_one (length_glue rest)
    rw [hglue] at ih
    cases piece with
    | word text =>
      simp only [glue, hglue, List.modifyHead, List.filterMap_cons, part?, Text.alternate] at ih ⊢
      rw [String.append_assoc, ih]
      simp [joined, Piece.text]
    | part s =>
      simp only [glue, hglue, List.filterMap_cons, part?, Text.alternate, List.zipWith_cons_cons]
        at ih ⊢
      rw [String.empty_append, String.join_cons, String.append_assoc, ih]
      simp [joined, Piece.text]

/-- Parts with commas between them. -/
def commaSeparated : List α → List (Piece α)
  | [] => []
  | [last] => [part last]
  | first :: rest => part first :: word ", " :: commaSeparated rest

theorem joined_commaSeparated : ∀ texts : List String,
    joined id (commaSeparated texts) = Text.commaSeparated texts
  | [] => rfl
  | [last] => by simp [commaSeparated, joined, Piece.text, Text.commaSeparated]
  | first :: second :: rest => by
    have ih := joined_commaSeparated (second :: rest)
    simp only [joined, Text.commaSeparated] at ih ⊢
    simp [commaSeparated, Piece.text, ih, String.intercalate_cons_cons, String.append_assoc]

theorem parts_commaSeparated : ∀ parts : List α, (commaSeparated parts).filterMap part? = parts
  | [] => rfl
  | [_] => rfl
  | first :: second :: rest => by
    have ih := parts_commaSeparated (second :: rest)
    simpa [commaSeparated, List.filterMap_cons, part?] using ih

theorem map_commaSeparated (f : α → β) : ∀ parts : List α,
    (commaSeparated parts).map (map f) = commaSeparated (parts.map f)
  | [] => rfl
  | [_] => rfl
  | first :: second :: rest => by
    have ih := map_commaSeparated f (second :: rest)
    simpa [commaSeparated, map] using ih

end Piece

/-! ## Pieces of layouts -/

/-- The columns of a common table, if any are given. -/
def CommonTable.columnPieces (columns : List α) : List (Piece α) :=
  if columns.isEmpty then [] else .word " (" :: Piece.commaSeparated columns ++ [.word ")"]

mutual

/-- The words and strings of a layout in the built-in way. -/
def Layout.pieces : Layout → List (Piece String)
  | .empty => []
  | .token text => [.word text]
  | .verbatim text => [.part text]
  | .append first second => first.pieces ++ second.pieces
  | .isolated inner => inner.pieces
  | .commonTable name columns body =>
    .part name :: CommonTable.columnPieces columns ++ .word " AS (" :: body.pieces ++ [.word ")"]
  | .query body => body.pieces

/-- The words and strings of a query, the word that introduces a select included. -/
def Body.pieces : Body → List (Piece String)
  | .select before condition after =>
    .word "SELECT " :: before.pieces ++ condition.pieces ++ after.pieces
  | .compound left joiner right => left.pieces ++ .word joiner :: right.pieces

end

namespace CommonTable

theorem joined_columnPieces (columns : List String) :
    Piece.joined id (columnPieces columns) = columnsText columns := by
  cases columns with
  | nil => rfl
  | cons column rest =>
    have h := Piece.joined_commaSeparated (column :: rest)
    simp only [Piece.joined] at h
    simp [columnPieces, columnsText, Piece.joined, Piece.text, h, String.append_assoc]

theorem parts_columnPieces (columns : List α) :
    (columnPieces columns).filterMap Piece.part? = columns := by
  cases columns with
  | nil => rfl
  | cons column rest =>
    simp [columnPieces, List.filterMap_cons, Piece.part?, Piece.parts_commaSeparated]

theorem map_columnPieces (f : α → β) (columns : List α) :
    (columnPieces columns).map (Piece.map f) = columnPieces (columns.map f) := by
  cases columns with
  | nil => rfl
  | cons column rest =>
    have h := Piece.map_commaSeparated f (column :: rest)
    rw [List.map_cons] at h
    simp [columnPieces, Piece.map, h]

end CommonTable

mutual

/-- The pieces of a layout give its text. -/
theorem Layout.joined_pieces : ∀ l : Layout, Piece.joined id l.pieces = l.text
  | .empty => rfl
  | .token t => by simp [Layout.pieces, Piece.joined, Piece.text]
  | .verbatim t => by simp [Layout.pieces, Piece.joined, Piece.text]
  | .append first second => by
    rw [Layout.pieces, Piece.joined_append, Layout.joined_pieces first,
      Layout.joined_pieces second, Layout.text]
  | .isolated inner => by rw [Layout.pieces, Layout.joined_pieces inner, Layout.text]
  | .commonTable name columns body => by
    have hcolumns := CommonTable.joined_columnPieces columns
    have hbody := Body.joined_pieces body
    simp only [Piece.joined] at hcolumns hbody
    simp [Layout.pieces, Piece.joined, Piece.text, hcolumns, hbody, String.append_assoc]
  | .query body => by rw [Layout.pieces, Body.joined_pieces body, Layout.text]

theorem Body.joined_pieces : ∀ body : Body, Piece.joined id body.pieces = body.text
  | .select before condition after => by
    rw [Body.pieces, Piece.joined_append, Piece.joined_append, Layout.joined_pieces condition,
      Layout.joined_pieces after, Body.text, ← Layout.joined_pieces before]
    simp [Piece.joined, Piece.text, String.append_assoc]
  | .compound left joiner right => by
    rw [Body.pieces, Piece.joined_append, Body.joined_pieces left, Body.text,
      ← Body.joined_pieces right]
    simp [Piece.joined, Piece.text, String.append_assoc]

end

/-! ## Shapes -/

/-- Puts a fixed string in the place of every string that is not empty. -/
def Edit.shaping : Edit where
  string s := if s = "" then "" else "x"
  string_eq_empty_iff s := by by_cases h : s = "" <;> simp [h]
  compound := .compound
  compoundBody := .compound
  map_compound _ _ _ _ _ := rfl
  body_compound _ _ _ _ := rfl

/-- The tree with one fixed string in the place of all strings that are not empty. -/
def Expr.shape (e : Expr) : Expr :=
  e.edited .shaping

/-- The text of an expression around its strings. -/
def Expr.glue (e : Expr) : List String :=
  Piece.glue e.layout.pieces

mutual

theorem Layout.pieces_shaped : ∀ l : Layout,
    (l.edit .shaping).pieces = l.pieces.map (Piece.map Edit.shaping.string)
  | .empty => by rw [Layout.edit]; rfl
  | .token t => by rw [Layout.edit]; rfl
  | .verbatim t => by rw [Layout.edit]; rfl
  | .append first second => by
    rw [Layout.edit, Layout.pieces, Layout.pieces, Layout.pieces_shaped first,
      Layout.pieces_shaped second, List.map_append]
  | .isolated inner => by
    rw [Layout.edit, Layout.pieces, Layout.pieces, Layout.pieces_shaped inner]
  | .commonTable name columns body => by
    rw [Layout.edit, Layout.pieces, Layout.pieces, Body.pieces_shaped body]
    simp [Piece.map, CommonTable.map_columnPieces]
  | .query body => by rw [Layout.edit, Layout.pieces, Layout.pieces, Body.pieces_shaped body]

theorem Body.pieces_shaped : ∀ body : Body,
    (body.edit .shaping).pieces = body.pieces.map (Piece.map Edit.shaping.string)
  | .select before condition after => by
    rw [Body.edit, Body.pieces, Body.pieces, Layout.pieces_shaped before,
      Layout.pieces_shaped condition, Layout.pieces_shaped after]
    simp [Piece.map]
  | .compound left joiner right => by
    have h : (Body.compound left joiner right).edit .shaping =
        .compound (left.edit .shaping) joiner (right.edit .shaping) := by
      rw [Body.edit]
      rfl
    rw [h, Body.pieces, Body.pieces, Body.pieces_shaped left, Body.pieces_shaped right]
    simp [Piece.map]

end

/-- The glue is the same for all trees of one shape. -/
theorem Expr.glue_shape (e : Expr) : e.shape.glue = e.glue := by
  rw [glue, shape, layout_edited, Layout.pieces_shaped, Piece.glue_map, glue]

/-! ## Leaves of trees

The strings that are written for a clause, given those of its sub-expressions. Where a clause has no
string of its own, they are those of its sub-expressions. -/

namespace Table

/-- Of schema and name an empty one is left out. -/
def nameLeaves (table : Table) : List String :=
  match table.schema with
  | none => [table.name]
  | some schema =>
    if table.name = "" then [schema]
    else if schema = "" then [table.name]
    else [schema, table.name]

/-- A table is referred to by its alias, if it has one. -/
def qualifierLeaves (table : Table) : List String :=
  match table.label with
  | some label => [label.name]
  | none => table.nameLeaves

/-- The name of a table where it is introduced, and then its alias. -/
def leaves (table : Table) : List String :=
  table.nameLeaves ++ table.label.toList.map Alias.name

end Table

/-- An empty qualifier is left out. -/
def Column.leaves (column : Column) : List String :=
  match column.table with
  | none => [column.name]
  | some table =>
    if table.qualifier = "" then [column.name] else table.qualifierLeaves ++ [column.name]

/-- Temporal values hold no strings, so nothing of them is a leaf. -/
def Literal.leaves : Literal → List String
  | long spelling => [spelling]
  | double spelling => [spelling]
  | hex spelling => [spelling]
  | string value => value.marker.toList ++ [value.value]
  | dateTime _ value => [value]
  | _ => []

/-- Names and type suffixes are leaves, numbers are glue. -/
def Parameter.leaves : Parameter → List String
  | named name typeSuffix => name :: typeSuffix.toList
  | markup typeSuffix => typeSuffix.toList
  | _ => []

/-- The name of a custom type is a leaf, all other types are glue. -/
def DataType.leaves : DataType → List String
  | array element => element.leaves
  | custom name => [name]
  | _ => []

/-- The ranking function comes before the ordering. -/
def Keep.leaves (keep : Keep (List String)) : List String :=
  keep.name :: keep.children.flatten

/-- The name, the arguments, the field and the keep clause, in this order. -/
def Call.leaves (call : Call (List String)) : List String :=
  call.name :: call.arguments.toList.flatten.flatten ++ call.field.toList ++
    call.keep.toList.flatMap Keep.leaves

/-- The leaves of the fields that are written; the other fields have none. -/
def Analytic.leaves (a : Analytic (List String)) : List String :=
  a.name :: a.writtenArguments.flatten ++ a.keep.toList.flatMap Keep.leaves ++
    a.partitionBy.flatten ++ a.writtenOrder.flatten

/-- The separator comes last. -/
def GroupConcat.leaves (g : GroupConcat (List String)) : List String :=
  g.children.flatten ++ g.separator.toList

/-- A star for one table has the leaves of its qualifier. -/
def SelectItem.leaves : SelectItem (List String) → List String
  | allColumns => []
  | tableColumns table => table.qualifierLeaves
  | expr e label => e ++ label.toList.map Alias.name

/-- The leaves of the clauses in the order of the text. -/
def Select.leaves (select : Select (List String)) : List String :=
  select.items.flatMap SelectItem.leaves ++ select.source.toList.flatMap Table.leaves ++
    select.condition.toList.flatten ++ select.groupBy.flatten ++ select.having.toList.flatten ++
    (select.orderBy.flatMap OrderKey.children).flatten ++ select.limit.toList.flatten

/-- The leaves of the selects from left to right; set operators are glue. -/
def Query.leaves : Query (List String) → List String
  | plain select => select.leaves
  | compound _ _ left right => left.leaves ++ right.leaves

/-- The name, the columns and then the query. -/
def CommonTable.leaves (table : CommonTable (List String)) : List String :=
  table.name :: table.columns ++ table.query.leaves

/-- The common tables are written in front of the query. -/
def SubQuery.leaves (sub : SubQuery (List String)) : List String :=
  sub.commonTables.flatMap CommonTable.leaves ++ sub.query.leaves

/-- The leaves of the values, or of the query among the items. -/
def Items.leaves : Items (List String) → List String
  | query sub => sub.leaves
  | items => items.children.flatten

/-- The leaves of the left side of a membership test. -/
def Member.leaves : Member (List String) → List String
  | expr e => e
  | items is => is.leaves

/-- The strings that are written for a node, given those of its sub-expressions. -/
def Node.leaves : Node (List String) → List String
  | like left right _ _ escape => left ++ right ++ escape.toList
  | membership member items _ _ => member.leaves ++ items.leaves
  | call c => c.leaves
  | analytic a => a.leaves
  | groupConcat g => g.leaves
  | cast expr type _ => expr ++ type.leaves
  | extract field expr => field :: expr
  | interval amount unit => amount :: unit.toList
  | row name elements => name.toList ++ elements.flatten
  | column c => c.leaves
  | document c path => c.leaves ++ path.map PathStep.key
  | literal l => l.leaves
  | parameter p => p.leaves
  | sessionVariable name _ => [name]
  | timeKey word => [word]
  | subQuery query => query.leaves
  | allOf query => query.leaves
  | anyOf _ query => query.leaves
  | hint h => [h.value]
  | n => n.children.flatten

/-- The strings that are written for an expression, in the order of the text. -/
def Expr.leaves : Expr → List String :=
  Expr.fold Node.leaves

/-! ## Leaves of layouts -/

/-- The strings of a layout. -/
def Layout.leaves (l : Layout) : List String :=
  l.pieces.filterMap Piece.part?

/-- The strings of the body of a query. -/
def Body.leaves (body : Body) : List String :=
  body.pieces.filterMap Piece.part?

namespace Layout

@[simp] theorem leaves_empty : Layout.empty.leaves = [] := rfl

@[simp] theorem leaves_token (text : String) : (Layout.token text).leaves = [] := rfl

@[simp] theorem leaves_verbatim (text : String) : (Layout.verbatim text).leaves = [text] := rfl

@[simp] theorem leaves_append (first second : Layout) :
    (first ++ second).leaves = first.leaves ++ second.leaves :=
  List.filterMap_append

@[simp] theorem leaves_isolated (inner : Layout) : (Layout.isolated inner).leaves = inner.leaves :=
  rfl

@[simp] theorem leaves_commonTable (name : String) (columns : List String) (body : Body) :
    (Layout.commonTable name columns body).leaves = name :: columns ++ body.leaves := by
  simp [Layout.leaves, Layout.pieces, List.filterMap_cons, Piece.part?,
    CommonTable.parts_columnPieces, Body.leaves]

@[simp] theorem leaves_query (body : Body) : (Layout.query body).leaves = body.leaves := rfl

@[simp] theorem leaves_onlyIf_token (condition : Bool) (text : String) :
    (onlyIf condition (.token text)).leaves = [] := by
  cases condition <;> rfl

@[simp] theorem leaves_ofOption (part : Option α) (layout : α → Layout) :
    (ofOption part layout).leaves = part.toList.flatMap fun a => (layout a).leaves := by
  cases part <;> simp [ofOption]

@[simp] theorem leaves_concat (ls : List Layout) :
    (concat ls).leaves = (ls.map Layout.leaves).flatten := by
  induction ls with
  | nil => rfl
  | cons l rest ih => simp [concat, ih]

@[simp] theorem leaves_separatedBy (separator : String) : ∀ ls : List Layout,
    (separatedBy separator ls).leaves = (ls.map Layout.leaves).flatten
  | [] => rfl
  | [last] => by simp [separatedBy]
  | first :: second :: rest => by
    have ih := leaves_separatedBy separator (second :: rest)
    simp only [List.map_cons] at ih
    simp [separatedBy, ih]

@[simp] theorem leaves_commaSeparated (ls : List Layout) :
    (commaSeparated ls).leaves = (ls.map Layout.leaves).flatten :=
  leaves_separatedBy ", " ls

@[simp] theorem leaves_bracketed (l : Layout) : (bracketed l).leaves = l.leaves := by
  simp [bracketed]

@[simp] theorem leaves_quoted (text : String) : (quoted text).leaves = [text] := rfl

end Layout

@[simp] theorem Body.leaves_select (before condition after : Layout) :
    (Body.select before condition after).leaves =
      before.leaves ++ condition.leaves ++ after.leaves := by
  simp [Body.leaves, Body.pieces, Layout.leaves, List.filterMap_cons, Piece.part?]

@[simp] theorem Body.leaves_compound (left : Body) (joiner : String) (right : Body) :
    (Body.compound left joiner right).leaves = left.leaves ++ right.leaves := by
  simp [Body.leaves, Body.pieces, List.filterMap_cons, Piece.part?]

/-! ### Leaves of the tree -/

theorem Alias.leaves_layout (label : Alias) : label.layout.leaves = [label.name] := rfl

namespace Table

theorem leaves_fullNameLayout (table : Table) :
    table.fullNameLayout.leaves = table.nameLeaves := by
  unfold fullNameLayout nameLeaves
  cases table.schema with
  | none => rfl
  | some schema =>
    by_cases hn : table.name = ""
    · simp [hn]
    · by_cases hs : schema = "" <;> simp [hn, hs]

theorem leaves_qualifierLayout (table : Table) :
    table.qualifierLayout.leaves = table.qualifierLeaves := by
  unfold qualifierLayout qualifierLeaves
  cases table.label with
  | none => exact table.leaves_fullNameLayout
  | some label => rfl

theorem leaves_layout (table : Table) : table.layout.leaves = table.leaves := by
  simp [layout, leaves, leaves_fullNameLayout, Alias.leaves_layout, List.map_eq_flatMap]

end Table

theorem Column.leaves_layout (column : Column) : column.layout.leaves = column.leaves := by
  unfold layout leaves
  cases column.table with
  | none => rfl
  | some table =>
    by_cases h : table.qualifier = "" <;> simp [h, Table.leaves_qualifierLayout]

theorem Literal.leaves_layout (l : Literal) : l.layout.leaves = l.leaves := by
  cases l <;> simp [layout, leaves, QuotedText.layout]

theorem Parameter.leaves_layout (p : Parameter) : p.layout.leaves = p.leaves := by
  cases p <;> simp [layout, leaves]

theorem DataType.leaves_layout (type : DataType) : type.layout.leaves = type.leaves := by
  induction type with
  | array element ih => simp [layout, leaves, ih]
  | _ => simp [layout, leaves]

/-! ### Clauses -/

theorem Arguments.leaves_layout (brackets : Bool) (arguments : List Layout) :
    (Arguments.layout brackets arguments).leaves = (arguments.map Layout.leaves).flatten := by
  cases brackets <;> simp [Arguments.layout]

namespace OrderKey

theorem leaves_layout (key : OrderKey Layout) : key.layout.leaves = key.expr.leaves := by
  simp [layout]

theorem leaves_clauseLayout (intro : String) (keys : List (OrderKey Layout)) :
    (clauseLayout intro keys).leaves = ((keys.flatMap children).map Layout.leaves).flatten := by
  have hchildren : keys.flatMap children = keys.map OrderKey.expr := List.map_eq_flatMap.symm
  rw [hchildren]
  cases keys with
  | nil => rfl
  | cons key rest => simp [clauseLayout, leaves_layout, Function.comp_def]

end OrderKey

theorem Keep.leaves_layout (keep : Keep Layout) :
    keep.layout.leaves = (keep.map Layout.leaves).leaves := by
  rw [leaves, Keep.children_map]
  simp [layout, map, children, OrderKey.leaves_clauseLayout]

theorem FrameBound.leaves_layout (bound : FrameBound Layout) :
    bound.layout.leaves = (bound.children.map Layout.leaves).flatten := by
  cases bound <;> simp [layout, children]

theorem Frame.leaves_layout (frame : Frame Layout) :
    frame.layout.leaves = (frame.children.map Layout.leaves).flatten := by
  obtain ⟨unit, extent⟩ := frame
  cases extent <;>
    simp [layout, children, FrameExtent.layout, FrameExtent.children, FrameBound.leaves_layout]

theorem When.leaves_layout (branch : When Layout) :
    branch.layout.leaves = (branch.children.map Layout.leaves).flatten := by
  simp [layout, children]

theorem Case.leaves_layout (c : Case Layout) :
    c.layout.leaves = (c.children.map Layout.leaves).flatten := by
  simp [layout, children, When.leaves_layout, Function.comp_def, List.map_flatMap,
    List.flatten_eq_flatMap, List.flatMap_map, List.flatMap_assoc]

namespace Call

theorem leaves_argumentsLayout (call : Call Layout) :
    call.argumentsLayout.leaves =
      (call.arguments.map (List.map Layout.leaves)).toList.flatten.flatten := by
  unfold argumentsLayout
  cases call.arguments <;> cases call.quantifier <;> simp [Arguments.leaves_layout]

theorem leaves_layout (call : Call Layout) :
    call.layout.leaves = (call.map Layout.leaves).leaves := by
  simp [layout, leaves, map, leaves_argumentsLayout, Keep.leaves_layout, Option.toList_map,
    List.flatMap_map]

end Call

namespace Analytic

theorem leaves_argumentsLayout (a : Analytic Layout) :
    a.argumentsLayout.leaves = (a.writtenArguments.map Layout.leaves).flatten := by
  unfold argumentsLayout writtenArguments
  cases a.argument <;> cases a.offset <;> simp [List.flatten_eq_flatMap, List.flatMap_map]

theorem leaves_orderLayout (a : Analytic Layout) :
    a.orderLayout.leaves = (a.writtenOrder.map Layout.leaves).flatten := by
  unfold orderLayout writtenOrder
  cases ho : a.orderBy with
  | nil => simp
  | cons key rest =>
    simp [OrderKey.leaves_clauseLayout, Frame.leaves_layout, List.map_flatMap,
      List.flatten_eq_flatMap, List.flatMap_map, List.flatMap_assoc]

theorem leaves_layout (a : Analytic Layout) :
    a.layout.leaves = (a.map Layout.leaves).leaves := by
  have hp : a.partitionLayout.leaves = (a.partitionBy.map Layout.leaves).flatten := by
    unfold partitionLayout
    cases a.partitionBy <;> simp
  rw [leaves, writtenArguments_map, writtenOrder_map]
  simp [layout, map, leaves_argumentsLayout, leaves_orderLayout, hp, Keep.leaves_layout,
    Option.toList_map, List.flatMap_map]

end Analytic

theorem GroupConcat.leaves_layout (g : GroupConcat Layout) :
    g.layout.leaves = (g.map Layout.leaves).leaves := by
  rw [leaves, GroupConcat.children_map]
  simp [layout, map, children, Arguments.leaves_layout, OrderKey.leaves_clauseLayout]

/-! ### Queries -/

theorem SelectItem.leaves_layout (item : SelectItem Layout) :
    item.layout.leaves = (item.map Layout.leaves).leaves := by
  cases item <;>
    simp [layout, leaves, map, Table.leaves_qualifierLayout, Alias.leaves_layout,
      List.map_eq_flatMap]

namespace Select

theorem leaves_body (select : Select Layout) :
    select.body.leaves = (select.map Layout.leaves).leaves := by
  have hg : select.groupLayout.leaves = (select.groupBy.map Layout.leaves).flatten := by
    unfold groupLayout
    cases select.groupBy <;> simp
  have ho : (select.orderBy.map (OrderKey.map Layout.leaves)).flatMap OrderKey.children =
      (select.orderBy.flatMap OrderKey.children).map Layout.leaves := by
    simp [List.flatMap_map, List.map_flatMap, OrderKey.children_map]
  cases hc : select.condition <;>
    simp [body, layoutBefore, layoutAfter, leaves, map, hc, hg, ho, SelectItem.leaves_layout,
      Table.leaves_layout, OrderKey.leaves_clauseLayout, Option.toList_map, List.flatMap_def,
      Function.comp_def]

end Select

theorem Query.leaves_body (query : Query Layout) :
    query.body.leaves = (query.map Layout.leaves).leaves := by
  induction query with
  | plain select => exact select.leaves_body
  | compound op all left right ihl ihr => simp [body, leaves, map, ihl, ihr]

theorem CommonTable.leaves_layout (table : CommonTable Layout) :
    table.layout.leaves = (table.map Layout.leaves).leaves := by
  simp [layout, leaves, map, Query.leaves_body]

theorem SubQuery.leaves_layout (sub : SubQuery Layout) :
    sub.layout.leaves = (sub.map Layout.leaves).leaves := by
  have hw : sub.withLayout.leaves =
      (sub.commonTables.map (CommonTable.map Layout.leaves)).flatMap CommonTable.leaves := by
    unfold withLayout
    cases sub.commonTables <;>
      simp [CommonTable.leaves_layout, List.flatMap_def, Function.comp_def]
  simp [layout, leaves, map, hw, Query.leaves_body]

theorem Items.leaves_layout (items : Items Layout) :
    items.layout.leaves = (items.map Layout.leaves).leaves := by
  cases items with
  | list values => exact Arguments.leaves_layout true values
  | rows lists =>
    simp [layout, leaves, map, children, Arguments.leaves_layout, Function.comp_def,
      List.flatten_flatten]
  | query sub => exact sub.leaves_layout

theorem Member.leaves_layout (join : OuterJoin) (member : Member Layout) :
    (member.layout join).leaves = (member.map Layout.leaves).leaves := by
  cases member with
  | expr e => simp [layout, leaves, map]
  | items is => exact is.leaves_layout

/-! ### Expressions -/

theorem Node.leaves_layout (n : Node Layout) : n.layout.leaves = (n.map Layout.leaves).leaves := by
  cases n with
  | case c =>
    have hchildren : ((case c).map Layout.leaves).leaves = (c.map Layout.leaves).children.flatten :=
      rfl
    rw [hchildren, Case.children_map]
    exact c.leaves_layout
  | cast e type keyword =>
    cases keyword <;> simp [layout, leaves, map, DataType.leaves_layout]
  | document c path =>
    simp [layout, leaves, map, Column.leaves_layout, PathStep.layout, Function.comp_def,
      ← List.flatMap_def, ← List.map_eq_flatMap]
  | hierarchical start connect noCycle => cases start <;> simp [layout, leaves, map, children]
  | _ =>
    simp [layout, leaves, map, infixed, children, Arguments.leaves_layout, Call.leaves_layout,
      Analytic.leaves_layout, GroupConcat.leaves_layout, Column.leaves_layout,
      Literal.leaves_layout, Parameter.leaves_layout, Hint.layout, SubQuery.leaves_layout,
      Items.leaves_layout, Member.leaves_layout]

/-- The strings of the layout are the leaves of the tree. -/
theorem Expr.leaves_layout (e : Expr) : e.layout.leaves = e.leaves := by
  refine Expr.eq_fold (f := fun e => e.layout.leaves) (fun n => ?_) e
  rw [Expr.layout_node, Node.leaves_layout, Node.map_map]
  rfl

/-! ## Text, glue and leaves -/

/-- The text of an expression is its glue, which depends on the shape alone, with the strings
between as they are : none is lost, changed, written twice or out of order. So the texts of
expressions of one shape differ only by their leaves. -/
theorem Expr.sql_eq_alternate_glue (e : Expr) :
    e.shape.glue.length = e.leaves.length + 1 ∧
      e.sql = Text.alternate e.shape.glue e.leaves ∧
      ∀ e' : Expr, e'.shape = e.shape →
        e'.leaves.length = e.leaves.length ∧ e'.sql = Text.alternate e.shape.glue e'.leaves := by
  have hlength : ∀ e : Expr, e.shape.glue.length = e.leaves.length + 1 := fun e => by
    rw [glue_shape, glue, Piece.length_glue, ← leaves_layout, Layout.leaves]
  have hsql : ∀ e : Expr, e.sql = Text.alternate e.shape.glue e.leaves := fun e => by
    rw [glue_shape, glue, ← leaves_layout, Layout.leaves, Piece.alternate_glue,
      Layout.joined_pieces, text_layout]
  refine ⟨hlength e, hsql e, fun e' hshape => ?_⟩
  rw [← hshape]
  refine ⟨?_, hsql e'⟩
  have h := hlength e
  rw [← hshape, hlength e'] at h
  exact Nat.succ.inj h

/-- Two patterns of one shape; the table has no name of its own, and the strings are of any kind. -/
theorem Expr.sql_eq_alternate_glue_like :
    let pattern := fun schema column text escape : String =>
      Expr.node (.like (.node (.column ⟨some ⟨some schema, "", none⟩, column⟩))
        (.node (.literal (.string ⟨some "N", text⟩))) true false (some escape))
    let e := pattern "s" "a" "é%" "!"
    let e' := pattern "it's" "--" "(+)" "''"
    e'.shape = e.shape ∧ e.shape.glue = ["NOT ", ".", " LIKE ", "'", "' ESCAPE '", "'"] ∧
      e.leaves = ["s", "a", "N", "é%", "!"] ∧
      e.sql = Text.alternate e.shape.glue ["s", "a", "N", "é%", "!"] ∧
      e'.sql = "NOT it's.-- LIKE N'(+)' ESCAPE ''''" := by
  intro pattern e e'
  have hshape : e'.shape = e.shape := rfl
  have hglue : e.shape.glue = ["NOT ", ".", " LIKE ", "'", "' ESCAPE '", "'"] := by
    decide +kernel
  have hleaves : e.leaves = ["s", "a", "N", "é%", "!"] := by decide +kernel
  obtain ⟨-, htext, hsame⟩ := sql_eq_alternate_glue e
  refine ⟨hshape, hglue, hleaves, hleaves ▸ htext, (hsame e' hshape).2.trans ?_⟩
  rw [hglue]
  decide +kernel

end SqlText
