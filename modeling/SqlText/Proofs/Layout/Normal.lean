import SqlText.Expr.Equality
import SqlText.Proofs.Handoff.Parts
import SqlText.Proofs.Layout.Text
import SqlText.Session

/-!
# Fields that are not written

Some fields of a tree are written only together with others : the quantifier of a call and the star
in its place, the offset and the default value of an analytic function and its frame, the join mark
of a membership test, the scale of a number type, the name of a table behind an alias. A tree is
tidy if the fields that are not written are not set (`Node.Tidy`), and `Expr.normalized` clears them
everywhere in a tree.

The main statement is `Expr.render_normalized`. Since the layout of a clause does not look at the
fields that are cleared (`layout_normalize`, one lemma for each clause), no rendering can tell a
tree from its normal form, whatever the renderer. Normal forms are tidy and tidy trees are their own
normal forms, so to normalise twice is to normalise once.
-/

namespace SqlText

variable {ε δ : Type}

/-! ## Tables and columns -/

namespace Table

/-- An empty schema is no schema. -/
def normalize (table : Table) : Table :=
  { table with schema := table.schema.filter (· ≠ "") }

/-- Of a table in front of the names of its columns an alias is all that is written. -/
def normalizeQualifier (table : Table) : Table :=
  match table.label with
  | some label => ⟨none, "", some ⟨label.name, false⟩⟩
  | none => table.normalize

/-- The schema is absent or not empty. -/
def Tidy (table : Table) : Prop :=
  table.schema ≠ some ""

/-- Beside an alias there is nothing that is not written. -/
def TidyQualifier (table : Table) : Prop :=
  table.Tidy ∧ ∀ label ∈ table.label,
    table.schema = none ∧ table.name = "" ∧ label.useAs = false

theorem tidy_normalize (table : Table) : table.normalize.Tidy := by
  simp [Tidy, normalize, Option.filter_eq_some_iff]

theorem normalize_of_tidy {table : Table} (h : table.Tidy) : table.normalize = table := by
  obtain ⟨schema, name, label⟩ := table
  cases schema with
  | none => rfl
  | some schema =>
    have hschema : schema ≠ "" := fun he => h (congrArg some he)
    simp [normalize, hschema]

theorem tidyQualifier_normalizeQualifier (table : Table) :
    table.normalizeQualifier.TidyQualifier := by
  obtain ⟨schema, name, label⟩ := table
  cases label with
  | none => exact ⟨tidy_normalize _, by simp [normalizeQualifier, normalize]⟩
  | some label => simp [normalizeQualifier, TidyQualifier, Tidy]

theorem normalizeQualifier_of_tidy {table : Table} (h : table.TidyQualifier) :
    table.normalizeQualifier = table := by
  obtain ⟨schema, name, label⟩ := table
  cases label with
  | none => exact normalize_of_tidy h.1
  | some label =>
    obtain ⟨label, useAs⟩ := label
    obtain ⟨hschema, hname, huse⟩ := h.2 _ rfl
    simp_all [normalizeQualifier]

theorem fullNameLayout_normalize (table : Table) :
    table.normalize.fullNameLayout = table.fullNameLayout := by
  obtain ⟨schema, name, label⟩ := table
  cases schema with
  | none => rfl
  | some schema =>
    by_cases hschema : schema = ""
    · by_cases hname : name = "" <;> simp [normalize, fullNameLayout, Option.filter, hschema, hname]
    · simp [normalize, fullNameLayout, Option.filter, hschema]

theorem layout_normalize (table : Table) : table.normalize.layout = table.layout := by
  rw [layout, fullNameLayout_normalize]
  rfl

theorem qualifierLayout_normalizeQualifier (table : Table) :
    table.normalizeQualifier.qualifierLayout = table.qualifierLayout := by
  obtain ⟨schema, name, label⟩ := table
  cases label with
  | none => exact fullNameLayout_normalize _
  | some label => rfl

theorem qualifier_normalizeQualifier (table : Table) :
    table.normalizeQualifier.qualifier = table.qualifier := by
  rw [← text_qualifierLayout, qualifierLayout_normalizeQualifier, text_qualifierLayout]

end Table

namespace Column

/-- A table that puts nothing in front of the name is left out. -/
def normalize (column : Column) : Column :=
  { column with
    table := (column.table.filter (·.qualifier ≠ "")).map Table.normalizeQualifier }

/-- The table, if there is one, is written, and nothing else is set in it. -/
def Tidy (column : Column) : Prop :=
  ∀ table ∈ column.table, table.qualifier ≠ "" ∧ table.TidyQualifier

theorem tidy_normalize (column : Column) : column.normalize.Tidy := by
  intro table htable
  obtain ⟨inner, hinner, rfl⟩ := Option.map_eq_some_iff.1 htable
  obtain ⟨-, hqualifier⟩ := Option.filter_eq_some_iff.1 hinner
  refine ⟨?_, inner.tidyQualifier_normalizeQualifier⟩
  rw [Table.qualifier_normalizeQualifier]
  exact of_decide_eq_true hqualifier

theorem normalize_of_tidy {column : Column} (h : column.Tidy) : column.normalize = column := by
  obtain ⟨table, name⟩ := column
  cases table with
  | none => rfl
  | some table =>
    obtain ⟨hqualifier, htidy⟩ := h table rfl
    simp [normalize, Option.filter, hqualifier, Table.normalizeQualifier_of_tidy htidy]

theorem layout_normalize (column : Column) : column.normalize.layout = column.layout := by
  obtain ⟨table, name⟩ := column
  cases table with
  | none => rfl
  | some table =>
    by_cases h : table.qualifier = ""
    · simp [normalize, layout, Option.filter, h]
    · simp [normalize, layout, Option.filter, h, Table.qualifier_normalizeQualifier,
        Table.qualifierLayout_normalizeQualifier]

end Column

namespace DataType

/-- A scale without a precision is left out. -/
def normalize : DataType → DataType
  | decimal precision scale => decimal precision (precision.bind fun _ => scale)
  | numeric precision scale => numeric precision (precision.bind fun _ => scale)
  | array element => array element.normalize
  | type => type

/-- There is no scale without a precision. -/
def Tidy : DataType → Prop
  | decimal precision scale => precision = none → scale = none
  | numeric precision scale => precision = none → scale = none
  | array element => element.Tidy
  | _ => True

theorem tidy_normalize (type : DataType) : type.normalize.Tidy := by
  induction type with
  | decimal precision scale => cases precision <;> simp [normalize, Tidy]
  | numeric precision scale => cases precision <;> simp [normalize, Tidy]
  | array element ih => exact ih
  | _ => trivial

theorem normalize_of_tidy {type : DataType} (h : type.Tidy) : type.normalize = type := by
  induction type with
  | decimal precision scale => cases precision <;> simp_all [normalize, Tidy]
  | numeric precision scale => cases precision <;> simp_all [normalize, Tidy]
  | array element ih => exact congrArg array (ih h)
  | _ => rfl

theorem layout_normalize (type : DataType) : type.normalize.layout = type.layout := by
  induction type with
  | decimal precision scale => cases precision <;> rfl
  | numeric precision scale => cases precision <;> rfl
  | array element ih => rw [normalize, layout, layout, ih]
  | _ => rfl

end DataType

/-! ## Calls and analytic functions -/

namespace Call

/-- Without arguments there is no quantifier, and with arguments no star. -/
def normalize (call : Call ε) : Call ε :=
  { call with
    quantifier := call.arguments.bind fun _ => call.quantifier
    allColumns := call.arguments.isNone && call.allColumns }

/-- A quantifier comes with arguments, a star without. -/
def Tidy (call : Call ε) : Prop :=
  (call.arguments = none → call.quantifier = none) ∧
    (call.arguments.isSome → call.allColumns = false)

theorem normalize_map (f : ε → δ) (call : Call ε) :
    (call.map f).normalize = call.normalize.map f := by
  cases h : call.arguments <;> simp [normalize, map, h]

theorem tidy_normalize (call : Call ε) : call.normalize.Tidy := by
  cases h : call.arguments <;> simp [normalize, Tidy, h]

theorem normalize_of_tidy {call : Call ε} (h : call.Tidy) : call.normalize = call := by
  obtain ⟨name, arguments, quantifier, allColumns, escaped, field, keep⟩ := call
  cases arguments <;> simp_all [normalize, Tidy]

theorem layout_normalize (call : Call Layout) : call.normalize.layout = call.layout := by
  have harguments : call.normalize.argumentsLayout = call.argumentsLayout := by
    unfold argumentsLayout normalize
    cases call.arguments with
    | none => rfl
    | some arguments => cases call.quantifier <;> simp
  rw [layout, harguments]
  rfl

end Call

namespace Analytic

/-- An offset needs an argument, a default value an offset, a star the absence of an argument and a
frame an ordering. -/
def normalize (a : Analytic ε) : Analytic ε :=
  { a with
    offset := a.argument.bind fun _ => a.offset
    defaultValue := a.argument.bind fun _ => a.offset.bind fun _ => a.defaultValue
    allColumns := a.argument.isNone && a.allColumns
    frame := if a.orderBy.isEmpty then none else a.frame }

/-- Each field comes with the one that it is written behind, and the star without an argument. -/
structure Tidy (a : Analytic ε) : Prop where
  offset : a.argument = none → a.offset = none
  defaultValue : a.offset = none → a.defaultValue = none
  allColumns : a.argument.isSome → a.allColumns = false
  frame : a.orderBy = [] → a.frame = none

theorem normalize_map (f : ε → δ) (a : Analytic ε) :
    (a.map f).normalize = a.normalize.map f := by
  cases ha : a.argument <;> cases ho : a.offset <;> cases hk : a.orderBy <;>
    simp [normalize, map, ha, ho, hk]

theorem tidy_normalize (a : Analytic ε) : a.normalize.Tidy := by
  constructor <;> cases ha : a.argument <;> cases ho : a.offset <;> simp_all [normalize]

theorem normalize_of_tidy {a : Analytic ε} (h : a.Tidy) : a.normalize = a := by
  obtain ⟨hoffset, hdefault, hall, hframe⟩ := h
  obtain ⟨name, kind, argument, offset, defaultValue, allColumns, distinct, ignoreNulls, keep,
    partitionBy, orderBy, frame⟩ := a
  cases argument <;> cases offset <;> cases orderBy <;> simp_all [normalize]

theorem layout_normalize (a : Analytic Layout) : a.normalize.layout = a.layout := by
  have harguments : a.normalize.argumentsLayout = a.argumentsLayout := by
    unfold argumentsLayout normalize
    cases a.argument <;> cases a.offset <;> simp [Layout.ofOption]
  have horder : a.normalize.orderLayout = a.orderLayout := by
    unfold orderLayout normalize
    cases a.orderBy <;> simp
  rw [layout, harguments, horder]
  rfl

end Analytic

/-! ## Queries -/

namespace SelectItem

/-- The table of a star is normalised as a qualifier. -/
def normalize : SelectItem ε → SelectItem ε
  | tableColumns table => tableColumns table.normalizeQualifier
  | item => item

/-- The table of a star is tidy as a qualifier. -/
def Tidy : SelectItem ε → Prop
  | tableColumns table => table.TidyQualifier
  | _ => True

theorem normalize_map (f : ε → δ) (item : SelectItem ε) :
    (item.map f).normalize = item.normalize.map f := by
  cases item <;> rfl

theorem tidy_normalize (item : SelectItem ε) : item.normalize.Tidy := by
  cases item with
  | tableColumns table => exact table.tidyQualifier_normalizeQualifier
  | _ => trivial

theorem normalize_of_tidy {item : SelectItem ε} (h : item.Tidy) : item.normalize = item := by
  cases item with
  | tableColumns table => exact congrArg tableColumns (Table.normalizeQualifier_of_tidy h)
  | _ => rfl

theorem layout_normalize (item : SelectItem Layout) : item.normalize.layout = item.layout := by
  cases item with
  | tableColumns table =>
    rw [normalize, layout, layout, Table.qualifierLayout_normalizeQualifier]
  | _ => rfl

end SelectItem

namespace Select

/-- Normalises the select list and the table that is selected from. -/
def normalize (select : Select ε) : Select ε :=
  { select with
    items := select.items.map SelectItem.normalize
    source := select.source.map Table.normalize }

/-- All items of the select list are tidy, and so is the table that is selected from. -/
def Tidy (select : Select ε) : Prop :=
  (∀ item ∈ select.items, item.Tidy) ∧ ∀ table ∈ select.source, table.Tidy

theorem normalize_map (f : ε → δ) (select : Select ε) :
    (select.map f).normalize = select.normalize.map f := by
  simp [normalize, map, SelectItem.normalize_map]

theorem tidy_normalize (select : Select ε) : select.normalize.Tidy := by
  refine ⟨fun item hitem => ?_, fun table htable => ?_⟩
  · obtain ⟨inner, -, rfl⟩ := List.mem_map.1 hitem
    exact inner.tidy_normalize
  · obtain ⟨inner, -, rfl⟩ := Option.map_eq_some_iff.1 htable
    exact inner.tidy_normalize

theorem normalize_of_tidy {select : Select ε} (h : select.Tidy) : select.normalize = select := by
  have hitems : select.items.map SelectItem.normalize = select.items :=
    (List.map_congr_left (g := id) fun item hitem =>
      SelectItem.normalize_of_tidy (h.1 item hitem)).trans (List.map_id _)
  have hsource : select.source.map Table.normalize = select.source := by
    obtain ⟨-, hsource⟩ := h
    cases hs : select.source with
    | none => rfl
    | some table => exact congrArg some (Table.normalize_of_tidy (hsource table hs))
  rw [normalize, hitems, hsource]

theorem body_normalize (select : Select Layout) : select.normalize.body = select.body := by
  have hbefore : select.normalize.layoutBefore = select.layoutBefore := by
    have hitems : select.normalize.items.map SelectItem.layout =
        select.items.map SelectItem.layout := by
      simp [normalize, SelectItem.layout_normalize]
    have hsource : (Layout.ofOption select.normalize.source fun t => .token " FROM " ++ t.layout) =
        Layout.ofOption select.source fun t => .token " FROM " ++ t.layout := by
      simp only [normalize]
      cases select.source with
      | none => rfl
      | some table => simp only [Option.map_some, Layout.ofOption, Table.layout_normalize]
    rw [layoutBefore, hitems, hsource]
    rfl
  rw [body, hbefore]
  rfl

end Select

namespace Query

/-- Normalises every select and keeps the set operators between them. -/
def normalize : Query ε → Query ε
  | plain select => plain select.normalize
  | compound op all left right => compound op all left.normalize right.normalize

/-- All selects of the query are tidy. -/
def Tidy : Query ε → Prop
  | plain select => select.Tidy
  | compound _ _ left right => left.Tidy ∧ right.Tidy

theorem normalize_map (f : ε → δ) (query : Query ε) :
    (query.map f).normalize = query.normalize.map f := by
  induction query with
  | plain select => exact congrArg plain (select.normalize_map f)
  | compound op all left right ihl ihr => rw [map, normalize, ihl, ihr, normalize, map]

theorem tidy_normalize (query : Query ε) : query.normalize.Tidy := by
  induction query with
  | plain select => exact select.tidy_normalize
  | compound op all left right ihl ihr => exact ⟨ihl, ihr⟩

theorem normalize_of_tidy {query : Query ε} (h : query.Tidy) : query.normalize = query := by
  induction query with
  | plain select => exact congrArg plain (Select.normalize_of_tidy h)
  | compound op all left right ihl ihr => rw [normalize, ihl h.1, ihr h.2]

theorem body_normalize (query : Query Layout) : query.normalize.body = query.body := by
  induction query with
  | plain select => exact select.body_normalize
  | compound op all left right ihl ihr => rw [normalize, body, body, ihl, ihr]

end Query

namespace CommonTable

/-- Normalises the query; the names are all written. -/
def normalize (table : CommonTable ε) : CommonTable ε :=
  { table with query := table.query.normalize }

/-- The query of the common table is tidy. -/
def Tidy (table : CommonTable ε) : Prop :=
  table.query.Tidy

theorem normalize_map (f : ε → δ) (table : CommonTable ε) :
    (table.map f).normalize = table.normalize.map f := by
  simp only [normalize, map, Query.normalize_map]

theorem normalize_of_tidy {table : CommonTable ε} (h : table.Tidy) : table.normalize = table := by
  rw [normalize, Query.normalize_of_tidy h]

theorem layout_normalize (table : CommonTable Layout) : table.normalize.layout = table.layout := by
  simp only [normalize, layout, Query.body_normalize]

end CommonTable

namespace SubQuery

/-- Normalises the query and its common tables. -/
def normalize (sub : SubQuery ε) : SubQuery ε :=
  { sub with
    query := sub.query.normalize
    commonTables := sub.commonTables.map CommonTable.normalize }

/-- The query and its common tables are tidy. -/
def Tidy (sub : SubQuery ε) : Prop :=
  sub.query.Tidy ∧ ∀ table ∈ sub.commonTables, table.Tidy

theorem normalize_map (f : ε → δ) (sub : SubQuery ε) :
    (sub.map f).normalize = sub.normalize.map f := by
  simp [normalize, map, Query.normalize_map, CommonTable.normalize_map]

theorem tidy_normalize (sub : SubQuery ε) : sub.normalize.Tidy := by
  refine ⟨sub.query.tidy_normalize, fun table htable => ?_⟩
  obtain ⟨inner, -, rfl⟩ := List.mem_map.1 htable
  exact inner.query.tidy_normalize

theorem normalize_of_tidy {sub : SubQuery ε} (h : sub.Tidy) : sub.normalize = sub := by
  have htables : sub.commonTables.map CommonTable.normalize = sub.commonTables :=
    (List.map_congr_left (g := id) fun table htable =>
      CommonTable.normalize_of_tidy (h.2 table htable)).trans (List.map_id _)
  rw [normalize, Query.normalize_of_tidy h.1, htables]

theorem layout_normalize (sub : SubQuery Layout) : sub.normalize.layout = sub.layout := by
  have hwith : sub.normalize.withLayout = sub.withLayout := by
    simp [withLayout, normalize, Function.comp_def, CommonTable.layout_normalize]
  rw [layout, hwith]
  simp only [normalize, layout, Query.body_normalize]

end SubQuery

namespace Items

/-- Normalises a query among the items; values are sub-expressions. -/
def normalize : Items ε → Items ε
  | query sub => query sub.normalize
  | items => items

/-- A query among the items is tidy. -/
def Tidy : Items ε → Prop
  | query sub => sub.Tidy
  | _ => True

theorem normalize_map (f : ε → δ) (items : Items ε) :
    (items.map f).normalize = items.normalize.map f := by
  cases items with
  | query sub => exact congrArg query (sub.normalize_map f)
  | _ => rfl

theorem tidy_normalize (items : Items ε) : items.normalize.Tidy := by
  cases items with
  | query sub => exact sub.tidy_normalize
  | _ => trivial

theorem normalize_of_tidy {items : Items ε} (h : items.Tidy) : items.normalize = items := by
  cases items with
  | query sub => exact congrArg query (SubQuery.normalize_of_tidy h)
  | _ => rfl

theorem layout_normalize (items : Items Layout) : items.normalize.layout = items.layout := by
  cases items with
  | query sub => exact sub.layout_normalize
  | _ => rfl

end Items

namespace Member

/-- Normalises the items of the left side. -/
def normalize : Member ε → Member ε
  | expr e => expr e
  | items is => items is.normalize

/-- Only a single expression carries the join mark, and only one for the left side. -/
def normalizeJoin (join : OuterJoin) : Member ε → OuterJoin
  | expr _ => if join = .right then .right else .absent
  | items _ => .absent

/-- The items of the left side are tidy. -/
def Tidy : Member ε → Prop
  | expr _ => True
  | items is => is.Tidy

/-- The join has a mark to write, or there is none. -/
def TidyJoin (join : OuterJoin) (member : Member ε) : Prop :=
  join = .absent ∨ join = .right ∧ ∃ e, member = expr e

theorem normalize_map (f : ε → δ) (member : Member ε) :
    (member.map f).normalize = member.normalize.map f := by
  cases member with
  | expr e => rfl
  | items is => exact congrArg items (is.normalize_map f)

theorem normalizeJoin_map (f : ε → δ) (join : OuterJoin) (member : Member ε) :
    (member.map f).normalizeJoin join = member.normalizeJoin join := by
  cases member <;> rfl

theorem tidy_normalize (member : Member ε) : member.normalize.Tidy := by
  cases member with
  | expr e => trivial
  | items is => exact is.tidy_normalize

theorem tidyJoin_normalizeJoin (join : OuterJoin) (member : Member ε) :
    member.normalize.TidyJoin (member.normalizeJoin join) := by
  cases member with
  | expr e => cases join <;> simp [TidyJoin, normalize, normalizeJoin]
  | items is => exact .inl rfl

theorem normalize_of_tidy {member : Member ε} (h : member.Tidy) : member.normalize = member := by
  cases member with
  | expr e => rfl
  | items is => exact congrArg items (Items.normalize_of_tidy h)

theorem normalizeJoin_of_tidy {join : OuterJoin} {member : Member ε} (h : member.TidyJoin join) :
    member.normalizeJoin join = join := by
  rcases h with rfl | ⟨rfl, e, rfl⟩
  · cases member <;> rfl
  · rfl

theorem layout_normalize (join : OuterJoin) (member : Member Layout) :
    member.normalize.layout (member.normalizeJoin join) = member.layout join := by
  cases member with
  | expr e => cases join <;> rfl
  | items is => exact is.layout_normalize

end Member

/-! ## Expressions -/

namespace Node

/-- A node without the fields that are not written. -/
def normalize : Node ε → Node ε
  | membership member items negated join =>
    membership member.normalize items.normalize negated (member.normalizeJoin join)
  | call c => call c.normalize
  | analytic a => analytic a.normalize
  | cast e type keyword => cast e type.normalize keyword
  | column c => column c.normalize
  | document c path => document c.normalize path
  | subQuery query => subQuery query.normalize
  | allOf query => allOf query.normalize
  | anyOf word query => anyOf word query.normalize
  | n => n

/-- The fields that are not written are not set. -/
def Tidy : Node ε → Prop
  | membership member items _ join => member.Tidy ∧ items.Tidy ∧ member.TidyJoin join
  | call c => c.Tidy
  | analytic a => a.Tidy
  | cast _ type _ => type.Tidy
  | column c => c.Tidy
  | document c _ => c.Tidy
  | subQuery query => query.Tidy
  | allOf query => query.Tidy
  | anyOf _ query => query.Tidy
  | _ => True

theorem normalize_map (f : ε → δ) (n : Node ε) : (n.map f).normalize = n.normalize.map f := by
  cases n with
  | membership member items negated join =>
    simp only [map, normalize, Member.normalize_map, Member.normalizeJoin_map, Items.normalize_map]
  | call c => exact congrArg call (c.normalize_map f)
  | analytic a => exact congrArg analytic (a.normalize_map f)
  | subQuery query => exact congrArg subQuery (query.normalize_map f)
  | allOf query => exact congrArg allOf (query.normalize_map f)
  | anyOf word query => exact congrArg (anyOf word) (query.normalize_map f)
  | _ => rfl

theorem tidy_normalize (n : Node ε) : n.normalize.Tidy := by
  cases n with
  | membership member items negated join =>
    exact ⟨member.tidy_normalize, items.tidy_normalize, member.tidyJoin_normalizeJoin join⟩
  | call c => exact c.tidy_normalize
  | analytic a => exact a.tidy_normalize
  | cast e type keyword => exact type.tidy_normalize
  | column c => exact c.tidy_normalize
  | document c path => exact c.tidy_normalize
  | subQuery query => exact query.tidy_normalize
  | allOf query => exact query.tidy_normalize
  | anyOf word query => exact query.tidy_normalize
  | _ => trivial

theorem normalize_of_tidy {n : Node ε} (h : n.Tidy) : n.normalize = n := by
  cases n with
  | membership member items negated join =>
    obtain ⟨hmember, hitems, hjoin⟩ := h
    rw [normalize, Member.normalize_of_tidy hmember, Items.normalize_of_tidy hitems,
      Member.normalizeJoin_of_tidy hjoin]
  | call c => exact congrArg call (Call.normalize_of_tidy h)
  | analytic a => exact congrArg analytic (Analytic.normalize_of_tidy h)
  | cast e type keyword => rw [normalize, DataType.normalize_of_tidy h]
  | column c => exact congrArg column (Column.normalize_of_tidy h)
  | document c path => rw [normalize, Column.normalize_of_tidy h]
  | subQuery query => exact congrArg subQuery (SubQuery.normalize_of_tidy h)
  | allOf query => exact congrArg allOf (SubQuery.normalize_of_tidy h)
  | anyOf word query => exact congrArg (anyOf word) (SubQuery.normalize_of_tidy h)
  | _ => rfl

/-- The layout of a node does not look at the fields that are not written. -/
theorem layout_normalize (n : Node Layout) : n.normalize.layout = n.layout := by
  cases n with
  | membership member items negated join =>
    rw [normalize, layout, layout, Member.layout_normalize, Items.layout_normalize]
  | call c => exact c.layout_normalize
  | analytic a => exact a.layout_normalize
  | cast e type keyword => simp only [normalize, layout, DataType.layout_normalize]
  | column c => exact c.layout_normalize
  | document c path => rw [normalize, layout, layout, Column.layout_normalize]
  | subQuery query => exact query.layout_normalize
  | allOf query => rw [normalize, layout, layout, SubQuery.layout_normalize]
  | anyOf word query => rw [normalize, layout, layout, SubQuery.layout_normalize]
  | _ => rfl

end Node

namespace Expr

/-- The expression without the fields that are not written, everywhere in the tree. -/
def normalized : Expr → Expr :=
  fold fun n => .node n.normalize

theorem normalized_node (n : Node Expr) :
    (Expr.node n).normalized = .node (n.map normalized).normalize :=
  fold_node _ n

/-- All nodes of the tree are tidy. -/
def Tidy (e : Expr) : Prop :=
  e.Everywhere Node.Tidy

/-- A tree and its normal form have the same layout. -/
theorem layout_normalized (e : Expr) : e.normalized.layout = e.layout := by
  refine eq_fold (f := fun e => e.normalized.layout) (fun n => ?_) e
  rw [normalized_node, layout_node, ← Node.normalize_map, Node.layout_normalize, Node.map_map]
  rfl

theorem tidy_normalized (e : Expr) : e.normalized.Tidy := by
  -- By induction on the normal form, whose parts are normal forms again.
  generalize hnormal : e.normalized = normal
  induction normal using Expr.induction generalizing e with
  | step m ih =>
    obtain ⟨n⟩ := e
    rw [normalized_node, Node.normalize_map] at hnormal
    obtain rfl := Expr.node.inj hnormal
    refine (everywhere_node _ _).2 ⟨?_, fun part hpart => ?_⟩
    · rw [← Node.normalize_map]
      exact Node.tidy_normalize _
    · rw [Node.children_map] at hpart
      obtain ⟨inner, hinner, rfl⟩ := List.mem_map.1 hpart
      refine ih _ ?_ inner rfl
      rw [Node.children_map]
      exact List.mem_map_of_mem hinner

theorem normalized_of_tidy {e : Expr} (h : e.Tidy) : e.normalized = e := by
  induction e using Expr.induction with
  | step n ih =>
    obtain ⟨hn, hparts⟩ := (everywhere_node _ _).1 h
    have hmap : n.map normalized = n.map id :=
      Node.map_congr fun part hpart => ih part hpart (hparts part hpart)
    rw [normalized_node, hmap, Node.map_id, id, Node.normalize_of_tidy hn]

/-- The normal form of a tree. Every session renders it as it renders the tree, with the same text,
calls, events and failures, whatever the renderer. The normal form is tidy, tidy trees are their own
normal forms, and so normalising twice is normalising once. -/
theorem render_normalized (e : Expr) :
    (∀ s : Session, s.render (.expr e.normalized) = s.render (.expr e) ∧
      s.renderToText e.normalized = s.renderToText e) ∧
    e.normalized.sql = e.sql ∧ e.normalized.Tidy ∧ e.normalized.normalized = e.normalized := by
  have hlayout := e.layout_normalized
  refine ⟨fun s => ⟨?_, ?_⟩, ?_, e.tidy_normalized, normalized_of_tidy e.tidy_normalized⟩
  · rw [Session.render, Session.render, Fragment.steps, Fragment.steps, hlayout]
  · rw [Session.renderToText, Session.renderToText, hlayout]
  · rw [← text_layout, hlayout, text_layout]

-- An alias is all that is kept of the table, and the query in the offset is not written.
example :
    let column := fun table => Expr.node (.column ⟨table, "a"⟩)
    let sub := Expr.node (.subQuery (.ofQuery (.plain (.ofItems [.allColumns]))))
    let e := Expr.node (.call { Call.ofName "f" with
      arguments := some [column (some ⟨some "s", "t", some ⟨"x", true⟩⟩),
        .node (.analytic { Analytic.ofName "lag" with offset := some sub })]
      allColumns := true })
    e.normalized == Expr.node (.call { Call.ofName "f" with
      arguments := some [column (some ⟨none, "", some ⟨"x", false⟩⟩),
        .node (.analytic (Analytic.ofName "lag"))] }) := by
  decide +kernel

end Expr

end SqlText
