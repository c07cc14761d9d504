import SqlText.Expr.Layout
import SqlText.Expr.Lemmas
import SqlText.Proofs.Layout.Text

/-!
# Edits of trees

An edit goes through a whole tree and puts other strings in the place of its strings and other
queries in the place of compound ones (`Edit`). All other fields stay as they are, and so does the
emptiness of strings, since an empty qualifier is left out.

A layout can be edited in the same way : its verbatim pieces are strings of the tree, and the bodies
in it are queries. The main statement is that the two agree, so that the layout of an edited tree is
the edited layout (`Expr.layout_edited`). It rests on one lemma for each clause, `edit_layout`.
-/

namespace SqlText

variable {ε δ : Type}

/-- What an edit does to strings and to compound queries. -/
structure Edit where
  /-- The string in the place of another; only the empty string is replaced by the empty one. -/
  string : String → String
  string_eq_empty_iff : ∀ s, string s = "" ↔ s = ""
  /-- The query in the place of two queries, edited already, and the operator between them. -/
  compound : {ε : Type} → SetOp → Bool → Query ε → Query ε → Query ε
  /-- The body of that query, given the bodies of the two. -/
  compoundBody : Body → String → Body → Body
  map_compound : ∀ {ε δ : Type} (f : ε → δ) (op : SetOp) (all : Bool) (left right : Query ε),
    (compound op all left right).map f = compound op all (left.map f) (right.map f)
  body_compound : ∀ (op : SetOp) (all : Bool) (left right : Query Layout),
    (compound op all left right).body = compoundBody left.body (op.joiner all) right.body

/-! ## Edits of leaves -/

section Leaves

variable (σ : Edit)

/-- Only the name of an alias is a string. -/
def Alias.edit (label : Alias) : Alias :=
  { label with name := σ.string label.name }

/-- All three names of a table are edited, written or not. -/
def Table.edit (table : Table) : Table :=
  ⟨table.schema.map σ.string, σ.string table.name, table.label.map (Alias.edit σ)⟩

/-- Edits the name of the column and its table. -/
def Column.edit (column : Column) : Column :=
  ⟨column.table.map (Table.edit σ), σ.string column.name⟩

/-- Only the key of a step is a string. -/
def PathStep.edit (step : PathStep) : PathStep :=
  { step with key := σ.string step.key }

/-- Only the content of a hint is a string. -/
def Hint.edit (hint : Hint) : Hint :=
  { hint with value := σ.string hint.value }

/-- Edits the marker and the text, not the quotes. -/
def QuotedText.edit (q : QuotedText) : QuotedText :=
  ⟨q.marker.map σ.string, σ.string q.value⟩

/-- Spellings of numbers are strings, values of the calendar and the clock are not. -/
def Literal.edit : Literal → Literal
  | long spelling => long (σ.string spelling)
  | double spelling => double (σ.string spelling)
  | hex spelling => hex (σ.string spelling)
  | string value => string (value.edit σ)
  | dateTime word value => dateTime word (σ.string value)
  | l => l

/-- Names and type suffixes are strings, numbers are not. -/
def Parameter.edit : Parameter → Parameter
  | named name typeSuffix => named (σ.string name) (typeSuffix.map σ.string)
  | markup typeSuffix => markup (typeSuffix.map σ.string)
  | p => p

/-- Only the name of a custom type is a string, at any depth of arrays. -/
def DataType.edit : DataType → DataType
  | array element => array element.edit
  | custom name => custom (σ.string name)
  | type => type

end Leaves

/-! ## Edits of clauses

An edit of a clause leaves its sub-expressions as they are, whatever they are. -/

section Clauses

variable (σ : Edit)

/-- Edits the name of the ranking function. -/
def Keep.edit (keep : Keep ε) : Keep ε :=
  { keep with name := σ.string keep.name }

/-- Edits the name, the field and the keep clause of a call. -/
def Call.edit (call : Call ε) : Call ε :=
  { call with
    name := σ.string call.name
    field := call.field.map σ.string
    keep := call.keep.map (Keep.edit σ) }

/-- Edits the name and the keep clause of an analytic function. -/
def Analytic.edit (a : Analytic ε) : Analytic ε :=
  { a with
    name := σ.string a.name
    keep := a.keep.map (Keep.edit σ) }

/-- Edits the separator. -/
def GroupConcat.edit (g : GroupConcat ε) : GroupConcat ε :=
  { g with separator := g.separator.map σ.string }

/-- Edits the table of a star, or the alias of an expression. -/
def SelectItem.edit : SelectItem ε → SelectItem ε
  | allColumns => allColumns
  | tableColumns table => tableColumns (table.edit σ)
  | expr e label => expr e (label.map (Alias.edit σ))

/-- Edits the select list and the table that is selected from. -/
def Select.edit (select : Select ε) : Select ε :=
  { select with
    items := select.items.map (SelectItem.edit σ)
    source := select.source.map (Table.edit σ) }

/-- Edits the selects, and puts another query in the place of each compound one. -/
def Query.edit : Query ε → Query ε
  | plain select => plain (select.edit σ)
  | compound op all left right => σ.compound op all left.edit right.edit

/-- Edits the names of the table and of its columns, and its query. -/
def CommonTable.edit (table : CommonTable ε) : CommonTable ε :=
  ⟨σ.string table.name, table.columns.map σ.string, table.query.edit σ⟩

/-- Edits the query and the common tables in front of it. -/
def SubQuery.edit (sub : SubQuery ε) : SubQuery ε :=
  { sub with
    query := sub.query.edit σ
    commonTables := sub.commonTables.map (CommonTable.edit σ) }

/-- Only a query among items has something to edit. -/
def Items.edit : Items ε → Items ε
  | query sub => query (sub.edit σ)
  | items => items

/-- Edits the items of the left side, not a single expression. -/
def Member.edit : Member ε → Member ε
  | expr e => expr e
  | items is => items (is.edit σ)

/-- The node with its own strings and queries edited. -/
def Node.edit : Node ε → Node ε
  | like left right negated ignoreCase escape =>
    like left right negated ignoreCase (escape.map σ.string)
  | membership member items negated join =>
    membership (member.edit σ) (items.edit σ) negated join
  | call c => call (c.edit σ)
  | analytic a => analytic (a.edit σ)
  | groupConcat g => groupConcat (g.edit σ)
  | cast e type keyword => cast e (type.edit σ) keyword
  | extract field e => extract (σ.string field) e
  | interval amount unit => interval (σ.string amount) (unit.map σ.string)
  | row name elements => row (name.map σ.string) elements
  | column c => column (c.edit σ)
  | document c path => document (c.edit σ) (path.map (PathStep.edit σ))
  | literal l => literal (l.edit σ)
  | parameter p => parameter (p.edit σ)
  | sessionVariable name system => sessionVariable (σ.string name) system
  | timeKey word => timeKey (σ.string word)
  | subQuery query => subQuery (query.edit σ)
  | allOf query => allOf (query.edit σ)
  | anyOf word query => anyOf word (query.edit σ)
  | hint h => hint (h.edit σ)
  | n => n

/-! ### Edits before and after a map -/

theorem Keep.edit_map (f : ε → δ) (keep : Keep ε) :
    (keep.map f).edit σ = (keep.edit σ).map f :=
  rfl

theorem Call.edit_map (f : ε → δ) (call : Call ε) :
    (call.map f).edit σ = (call.edit σ).map f := by
  simp [Call.edit, map, Function.comp_def, Keep.edit_map]

theorem Analytic.edit_map (f : ε → δ) (a : Analytic ε) :
    (a.map f).edit σ = (a.edit σ).map f := by
  simp [Analytic.edit, map, Function.comp_def, Keep.edit_map]

theorem SelectItem.edit_map (f : ε → δ) (item : SelectItem ε) :
    (item.map f).edit σ = (item.edit σ).map f := by
  cases item <;> rfl

theorem Select.edit_map (f : ε → δ) (select : Select ε) :
    (select.map f).edit σ = (select.edit σ).map f := by
  simp [Select.edit, map, SelectItem.edit_map]

theorem Query.edit_map (f : ε → δ) (query : Query ε) :
    (query.map f).edit σ = (query.edit σ).map f := by
  induction query with
  | plain select => exact congrArg plain (select.edit_map σ f)
  | compound op all left right ihl ihr =>
    rw [map, Query.edit, Query.edit, ihl, ihr, σ.map_compound]

theorem CommonTable.edit_map (f : ε → δ) (table : CommonTable ε) :
    (table.map f).edit σ = (table.edit σ).map f := by
  simp only [CommonTable.edit, map, Query.edit_map]

theorem SubQuery.edit_map (f : ε → δ) (sub : SubQuery ε) :
    (sub.map f).edit σ = (sub.edit σ).map f := by
  simp [SubQuery.edit, map, Query.edit_map, CommonTable.edit_map]

theorem Items.edit_map (f : ε → δ) (items : Items ε) :
    (items.map f).edit σ = (items.edit σ).map f := by
  cases items with
  | query sub => exact congrArg query (sub.edit_map σ f)
  | _ => rfl

theorem Member.edit_map (f : ε → δ) (member : Member ε) :
    (member.map f).edit σ = (member.edit σ).map f := by
  cases member with
  | expr e => rfl
  | items is => exact congrArg items (is.edit_map σ f)

theorem Node.edit_map (f : ε → δ) (n : Node ε) :
    (n.map f).edit σ = (n.edit σ).map f := by
  cases n with
  | membership member items negated join =>
    simp only [map, Node.edit, Member.edit_map, Items.edit_map]
  | call c => exact congrArg call (c.edit_map σ f)
  | analytic a => exact congrArg analytic (a.edit_map σ f)
  | subQuery query => exact congrArg subQuery (query.edit_map σ f)
  | allOf query => exact congrArg allOf (query.edit_map σ f)
  | anyOf word query => exact congrArg (anyOf word) (query.edit_map σ f)
  | _ => rfl

end Clauses

/-- The expression with all strings and queries of the tree edited. -/
def Expr.edited (σ : Edit) : Expr → Expr :=
  fold fun n => .node (n.edit σ)

theorem Expr.edited_node (σ : Edit) (n : Node Expr) :
    (Expr.node n).edited σ = .node ((n.map (Expr.edited σ)).edit σ) :=
  fold_node _ n

/-! ## Edits of layouts -/

mutual

/-- The layout with its verbatim pieces and its bodies edited. -/
def Layout.edit (σ : Edit) : Layout → Layout
  | .empty => .empty
  | .token text => .token text
  | .verbatim text => .verbatim (σ.string text)
  | .append first second => .append (first.edit σ) (second.edit σ)
  | .isolated inner => .isolated (inner.edit σ)
  | .commonTable name columns body =>
    .commonTable (σ.string name) (columns.map σ.string) (body.edit σ)
  | .query body => .query (body.edit σ)

/-- The body with its layouts edited, and another body in the place of a compound one. -/
def Body.edit (σ : Edit) : Body → Body
  | .select before condition after =>
    .select (before.edit σ) (condition.edit σ) (after.edit σ)
  | .compound left joiner right => σ.compoundBody (left.edit σ) joiner (right.edit σ)

end

attribute [simp] Layout.edit

section Layouts

variable (σ : Edit)

namespace Layout

@[simp] theorem edit_append (first second : Layout) :
    (first ++ second).edit σ = first.edit σ ++ second.edit σ := by
  show (Layout.append first second).edit σ = _
  rw [Layout.edit]
  rfl

@[simp] theorem edit_onlyIf (condition : Bool) (l : Layout) :
    (onlyIf condition l).edit σ = onlyIf condition (l.edit σ) := by
  cases condition <;> simp [onlyIf]

@[simp] theorem edit_ofOption {α : Type} (part : Option α) (layout : α → Layout) :
    (ofOption part layout).edit σ = ofOption part fun a => (layout a).edit σ := by
  cases part <;> simp [ofOption]

@[simp] theorem edit_concat (ls : List Layout) :
    (concat ls).edit σ = concat (ls.map (Layout.edit σ)) := by
  induction ls with
  | nil => simp [concat]
  | cons l rest ih => simp [concat, ih]

@[simp] theorem edit_separatedBy (separator : String) : ∀ ls : List Layout,
    (separatedBy separator ls).edit σ = separatedBy separator (ls.map (Layout.edit σ))
  | [] => by simp [separatedBy]
  | [last] => by simp [separatedBy]
  | first :: second :: rest => by
    have ih := edit_separatedBy separator (second :: rest)
    simp only [List.map_cons] at ih
    simp [separatedBy, ih]

@[simp] theorem edit_commaSeparated (ls : List Layout) :
    (commaSeparated ls).edit σ = commaSeparated (ls.map (Layout.edit σ)) :=
  edit_separatedBy σ ", " ls

@[simp] theorem edit_bracketed (l : Layout) :
    (bracketed l).edit σ = bracketed (l.edit σ) := by
  simp [bracketed]

@[simp] theorem edit_quoted (text : String) :
    (quoted text).edit σ = quoted (σ.string text) := by
  simp [quoted]

end Layout

/-! ### Leaves -/

theorem Alias.edit_layout (label : Alias) : label.layout.edit σ = (label.edit σ).layout := by
  have hj : (label.edit σ).joiner = label.joiner := rfl
  simp only [layout, hj, Layout.edit_append, Layout.edit]
  rfl

namespace Table

theorem edit_fullNameLayout (table : Table) :
    table.fullNameLayout.edit σ = (table.edit σ).fullNameLayout := by
  obtain ⟨schema, name, label⟩ := table
  cases schema with
  | none => simp [fullNameLayout, Table.edit]
  | some schema =>
    simp only [fullNameLayout, Table.edit, Option.map_some, σ.string_eq_empty_iff]
    by_cases hn : name = ""
    · simp [hn]
    · by_cases hs : schema = "" <;> simp [hn, hs]

theorem edit_qualifierLayout (table : Table) :
    table.qualifierLayout.edit σ = (table.edit σ).qualifierLayout := by
  have hn := table.edit_fullNameLayout σ
  unfold qualifierLayout
  cases h : table.label with
  | none => simpa [Table.edit, h] using hn
  | some label => simp [Table.edit, h, Alias.edit]

theorem edit_layout (table : Table) : table.layout.edit σ = (table.edit σ).layout := by
  simp only [layout, Layout.edit_append, edit_fullNameLayout]
  simp [Table.edit, Alias.edit_layout]

/-- An edit neither makes a qualifier empty nor fills an empty one. -/
theorem edit_qualifier_eq_empty_iff (table : Table) :
    (table.edit σ).qualifier = "" ↔ table.qualifier = "" := by
  obtain ⟨schema, name, label⟩ := table
  cases label with
  | some label => exact σ.string_eq_empty_iff label.name
  | none =>
    cases schema with
    | none => exact σ.string_eq_empty_iff name
    | some schema =>
      simp only [qualifier, Table.edit, fullName, Option.map_some, Option.map_none,
        σ.string_eq_empty_iff]
      by_cases hn : name = ""
      · simp [hn, σ.string_eq_empty_iff]
      · by_cases hs : schema = "" <;> simp [hn, hs, σ.string_eq_empty_iff]

end Table

theorem Column.edit_layout (column : Column) :
    column.layout.edit σ = (column.edit σ).layout := by
  unfold layout
  cases h : column.table with
  | none => simp [Column.edit, h]
  | some table =>
    simp only [Column.edit, h, Option.map_some, Table.edit_qualifier_eq_empty_iff]
    split <;> simp [Table.edit_qualifierLayout]

theorem PathStep.edit_layout (step : PathStep) : step.layout.edit σ = (step.edit σ).layout := by
  simp [layout, PathStep.edit]

theorem Hint.edit_layout (hint : Hint) : hint.layout.edit σ = (hint.edit σ).layout := by
  have ho : (hint.edit σ).opening = hint.opening := rfl
  have hc : (hint.edit σ).closing = hint.closing := rfl
  simp only [layout, ho, hc, Layout.edit_append, Layout.edit]
  rfl

theorem QuotedText.edit_layout (q : QuotedText) : q.layout.edit σ = (q.edit σ).layout := by
  simp [layout, QuotedText.edit]

theorem Literal.edit_layout (l : Literal) : l.layout.edit σ = (l.edit σ).layout := by
  cases l <;> simp [layout, Literal.edit, QuotedText.edit_layout]

theorem Parameter.edit_layout (p : Parameter) : p.layout.edit σ = (p.edit σ).layout := by
  cases p <;> simp [layout, Parameter.edit]

theorem DataType.edit_layout (type : DataType) : type.layout.edit σ = (type.edit σ).layout := by
  induction type with
  | array element ih => simp [layout, DataType.edit, ih]
  | _ => simp [layout, DataType.edit]

/-! ### Clauses -/

theorem Arguments.edit_layout (brackets : Bool) (arguments : List Layout) :
    (Arguments.layout brackets arguments).edit σ =
      Arguments.layout brackets (arguments.map (Layout.edit σ)) := by
  cases brackets <;> simp [Arguments.layout]

namespace OrderKey

theorem edit_layout (key : OrderKey Layout) :
    key.layout.edit σ = (key.map (Layout.edit σ)).layout := by
  simp [layout, map]

theorem edit_clauseLayout (intro : String) (keys : List (OrderKey Layout)) :
    (clauseLayout intro keys).edit σ =
      clauseLayout intro (keys.map (OrderKey.map (Layout.edit σ))) := by
  cases keys with
  | nil => simp [clauseLayout]
  | cons key rest => simp [clauseLayout, edit_layout, Function.comp_def]

end OrderKey

theorem Keep.edit_layout (keep : Keep Layout) :
    keep.layout.edit σ = ((keep.edit σ).map (Layout.edit σ)).layout := by
  have hr : ((keep.edit σ).map (Layout.edit σ)).rank = keep.rank := rfl
  simp only [layout, hr, Layout.edit_append, OrderKey.edit_clauseLayout]
  simp [map, Keep.edit]

theorem FrameBound.edit_layout (bound : FrameBound Layout) :
    bound.layout.edit σ = (bound.map (Layout.edit σ)).layout := by
  cases bound <;> simp [layout, map]

theorem FrameExtent.edit_layout (extent : FrameExtent Layout) :
    extent.layout.edit σ = (extent.map (Layout.edit σ)).layout := by
  cases extent <;> simp [layout, map, FrameBound.edit_layout]

theorem Frame.edit_layout (frame : Frame Layout) :
    frame.layout.edit σ = (frame.map (Layout.edit σ)).layout := by
  simp [layout, map, FrameExtent.edit_layout]

theorem When.edit_layout (branch : When Layout) :
    branch.layout.edit σ = (branch.map (Layout.edit σ)).layout := by
  simp [layout, map]

theorem Case.edit_layout (c : Case Layout) :
    c.layout.edit σ = (c.map (Layout.edit σ)).layout := by
  simp [layout, map, When.edit_layout, Function.comp_def]

namespace Call

theorem edit_argumentsLayout (call : Call Layout) :
    call.argumentsLayout.edit σ = ((call.edit σ).map (Layout.edit σ)).argumentsLayout := by
  unfold argumentsLayout
  cases ha : call.arguments <;> cases hq : call.quantifier <;>
    simp [map, Call.edit, ha, hq, Arguments.edit_layout]

theorem edit_layout (call : Call Layout) :
    call.layout.edit σ = ((call.edit σ).map (Layout.edit σ)).layout := by
  have ha := call.edit_argumentsLayout σ
  simp only [layout, Layout.edit_append, Layout.edit_onlyIf, Layout.edit_ofOption, ha]
  simp [map, Call.edit, Keep.edit_layout]

end Call

namespace Analytic

theorem edit_argumentsLayout (a : Analytic Layout) :
    a.argumentsLayout.edit σ = ((a.edit σ).map (Layout.edit σ)).argumentsLayout := by
  unfold argumentsLayout
  cases ha : a.argument <;> simp [map, Analytic.edit, ha]

theorem edit_partitionLayout (a : Analytic Layout) :
    a.partitionLayout.edit σ = ((a.edit σ).map (Layout.edit σ)).partitionLayout := by
  unfold partitionLayout
  cases hp : a.partitionBy <;> simp [map, Analytic.edit, hp]

theorem edit_orderLayout (a : Analytic Layout) :
    a.orderLayout.edit σ = ((a.edit σ).map (Layout.edit σ)).orderLayout := by
  unfold orderLayout
  cases ho : a.orderBy <;>
    simp [map, Analytic.edit, ho, OrderKey.edit_clauseLayout, Frame.edit_layout]

theorem edit_layout (a : Analytic Layout) :
    a.layout.edit σ = ((a.edit σ).map (Layout.edit σ)).layout := by
  simp only [layout, Layout.edit_append, edit_argumentsLayout, edit_partitionLayout,
    edit_orderLayout, Layout.edit_onlyIf, Layout.edit_ofOption]
  simp [map, Analytic.edit, Keep.edit_layout]

end Analytic

theorem GroupConcat.edit_layout (g : GroupConcat Layout) :
    g.layout.edit σ = ((g.edit σ).map (Layout.edit σ)).layout := by
  simp [layout, map, GroupConcat.edit, Arguments.edit_layout, OrderKey.edit_clauseLayout]

/-! ### Queries -/

theorem SelectItem.edit_layout (item : SelectItem Layout) :
    item.layout.edit σ = ((item.edit σ).map (Layout.edit σ)).layout := by
  cases item <;>
    simp [layout, map, SelectItem.edit, Table.edit_qualifierLayout, Alias.edit_layout]

namespace Select

theorem edit_layoutBefore (select : Select Layout) :
    select.layoutBefore.edit σ = ((select.edit σ).map (Layout.edit σ)).layoutBefore := by
  simp [layoutBefore, map, Select.edit, SelectItem.edit_layout, Table.edit_layout,
    Function.comp_def]

theorem edit_layoutAfter (select : Select Layout) :
    select.layoutAfter.edit σ = ((select.edit σ).map (Layout.edit σ)).layoutAfter := by
  have hg : select.groupLayout.edit σ = ((select.edit σ).map (Layout.edit σ)).groupLayout := by
    unfold groupLayout
    cases h : select.groupBy <;> simp [map, Select.edit, h]
  simp only [layoutAfter, Layout.edit_append, hg]
  simp [map, Select.edit, OrderKey.edit_clauseLayout]

theorem edit_body (select : Select Layout) :
    select.body.edit σ = ((select.edit σ).map (Layout.edit σ)).body := by
  rw [body, Body.edit, edit_layoutBefore, edit_layoutAfter]
  simp [body, map, Select.edit]

end Select

theorem Query.edit_body (query : Query Layout) :
    query.body.edit σ = ((query.edit σ).map (Layout.edit σ)).body := by
  induction query with
  | plain select => exact select.edit_body σ
  | compound op all left right ihl ihr =>
    rw [body, Body.edit, ihl, ihr, Query.edit, σ.map_compound, σ.body_compound]

theorem CommonTable.edit_layout (table : CommonTable Layout) :
    table.layout.edit σ = ((table.edit σ).map (Layout.edit σ)).layout := by
  simp [layout, map, CommonTable.edit, Query.edit_body]

namespace SubQuery

theorem edit_withLayout (sub : SubQuery Layout) :
    sub.withLayout.edit σ = ((sub.edit σ).map (Layout.edit σ)).withLayout := by
  unfold withLayout
  cases ht : sub.commonTables <;>
    simp [map, SubQuery.edit, ht, CommonTable.edit_layout, Function.comp_def]

theorem edit_layout (sub : SubQuery Layout) :
    sub.layout.edit σ = ((sub.edit σ).map (Layout.edit σ)).layout := by
  simp only [layout, Layout.edit_append, edit_withLayout]
  simp [map, SubQuery.edit, Query.edit_body]

end SubQuery

theorem Items.edit_layout (items : Items Layout) :
    items.layout.edit σ = ((items.edit σ).map (Layout.edit σ)).layout := by
  cases items with
  | list values => exact Arguments.edit_layout σ true values
  | rows lists => simp [layout, map, Items.edit, Arguments.edit_layout, Function.comp_def]
  | query sub => exact sub.edit_layout σ

theorem Member.edit_layout (join : OuterJoin) (member : Member Layout) :
    (member.layout join).edit σ = ((member.edit σ).map (Layout.edit σ)).layout join := by
  cases member with
  | expr e => simp [layout, map, Member.edit]
  | items is => exact is.edit_layout σ

/-! ### Expressions -/

theorem Node.edit_layout (n : Node Layout) :
    n.layout.edit σ = ((n.edit σ).map (Layout.edit σ)).layout := by
  cases n with
  | cast e type keyword =>
    cases keyword <;> simp [layout, map, Node.edit, DataType.edit_layout]
  | _ =>
    simp [layout, map, Node.edit, infixed, Arguments.edit_layout, Case.edit_layout,
      Call.edit_layout, Analytic.edit_layout, GroupConcat.edit_layout, Column.edit_layout,
      PathStep.edit_layout, Literal.edit_layout, Parameter.edit_layout, Hint.edit_layout,
      SubQuery.edit_layout, Items.edit_layout, Member.edit_layout, Function.comp_def]

/-- The layout of an edited tree is the edited layout. -/
theorem Expr.layout_edited (e : Expr) : (e.edited σ).layout = e.layout.edit σ := by
  -- Both sides obey one rule : lay out the edited node.
  let rule : Node Layout → Layout := fun n => (n.edit σ).layout
  have htree : ∀ n : Node Expr, ((Expr.node n).edited σ).layout =
      rule (n.map fun e => (e.edited σ).layout) := by
    intro n
    rw [edited_node, layout_node, ← Node.edit_map, Node.map_map]
    rfl
  have hlayout : ∀ n : Node Expr, (Expr.node n).layout.edit σ =
      rule (n.map fun e => e.layout.edit σ) := by
    intro n
    rw [layout_node, Node.edit_layout, ← Node.edit_map, Node.map_map]
    rfl
  calc (e.edited σ).layout
    _ = fold rule e := eq_fold (f := fun e => (e.edited σ).layout) htree e
    _ = e.layout.edit σ := (eq_fold (f := fun e => e.layout.edit σ) hlayout e).symm

end Layouts

end SqlText
