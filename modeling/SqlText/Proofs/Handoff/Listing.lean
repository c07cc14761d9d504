import SqlText.Proofs.Handoff.Parts
import SqlText.Proofs.Layout.Text
import SqlText.Render.Renderer

/-!
# Listing what is handed over

Several observations of a rendering are lists with one entry for each hand-off : what a recording
renderer notes, what is announced. They differ in what is noted of a hand-off and in what becomes
of the notes in an isolated part (`Listing`).

Whatever the listing, the notes on a clause's layout are those on its parts (`listed_layout`, one
lemma for each clause). The notes on the layout of a tree are therefore found by following the parts
down the tree (`Expr.listed_layout`).
-/

namespace SqlText

variable {α : Type}

/-- A way of listing hand-offs. -/
structure Listing (α : Type) where
  /-- What is noted of a hand-off, given the SQL text of what is handed over. -/
  note : Handoff → String → α
  /-- What becomes of the notes in an isolated part. -/
  isolate : List α → List α

mutual

/-- The notes on the hand-offs of a layout, in order. -/
def Layout.listed (notes : Listing α) : Layout → List α
  | .empty => []
  | .token _ => []
  | .verbatim _ => []
  | .append first second => first.listed notes ++ second.listed notes
  | .isolated inner => notes.isolate (inner.listed notes)
  | .commonTable name columns body =>
    notes.note (.commonTable name)
        (name ++ CommonTable.columnsText columns ++ " AS (" ++ body.text ++ ")") ::
      body.listed notes
  | .query body => notes.note (.query body.isCompound) body.text :: body.listed notes

/-- The notes on the hand-offs inside a query. -/
def Body.listed (notes : Listing α) : Body → List α
  | .select before condition after =>
    before.listed notes ++ condition.listed notes ++ after.listed notes
  | .compound left _ right => left.listed notes ++ right.listed notes

end

attribute [simp] Layout.listed Body.listed

/-- The notes on a part, given its layout. -/
@[simp] def Part.listed (notes : Listing α) : Part Layout → List α
  | expr l => l.listed notes
  | isolated l => notes.isolate (l.listed notes)
  | handed h => [notes.note h.handoff (h.map Layout.text).text]

variable (notes : Listing α)

/-! ## Ways of putting layouts together -/

namespace Layout

@[simp] theorem listed_append (first second : Layout) :
    (first ++ second).listed notes = first.listed notes ++ second.listed notes := by
  show (Layout.append first second).listed notes = _
  rw [listed]

@[simp] theorem listed_onlyIf (condition : Bool) (l : Layout) :
    (onlyIf condition l).listed notes = if condition then l.listed notes else [] := by
  cases condition <;> simp [onlyIf]

@[simp] theorem listed_ofOption {β : Type} (part : Option β) (layout : β → Layout) :
    (ofOption part layout).listed notes = part.toList.flatMap fun b => (layout b).listed notes := by
  cases part <;> simp [ofOption]

/-- A part that hands nothing over has no notes, whether it is there or not. -/
theorem listed_ofOption_eq_nil {β : Type} {layout : β → Layout}
    (h : ∀ b, (layout b).listed notes = []) (part : Option β) :
    (ofOption part layout).listed notes = [] := by
  rw [listed_ofOption, List.flatMap_eq_nil_iff]
  exact fun b _ => h b

@[simp] theorem listed_concat (ls : List Layout) :
    (concat ls).listed notes = ls.flatMap (Layout.listed notes) := by
  induction ls with
  | nil => simp [concat]
  | cons l rest ih => simp [concat, ih]

@[simp] theorem listed_separatedBy (separator : String) :
    ∀ ls : List Layout, (separatedBy separator ls).listed notes = ls.flatMap (Layout.listed notes)
  | [] => by simp [separatedBy]
  | [last] => by simp [separatedBy]
  | first :: second :: rest => by
    have ih := listed_separatedBy separator (second :: rest)
    simp [separatedBy, ih]

@[simp] theorem listed_commaSeparated (ls : List Layout) :
    (commaSeparated ls).listed notes = ls.flatMap (Layout.listed notes) :=
  listed_separatedBy notes ", " ls

@[simp] theorem listed_bracketed (l : Layout) : (bracketed l).listed notes = l.listed notes := by
  simp [bracketed]

@[simp] theorem listed_quoted (text : String) : (quoted text).listed notes = [] := by
  simp [quoted]

end Layout

/-! ## Leaves of the tree -/

@[simp] theorem Alias.listed_layout (label : Alias) : label.layout.listed notes = [] := by
  simp [layout]

@[simp] theorem Table.listed_fullNameLayout (table : Table) :
    table.fullNameLayout.listed notes = [] := by
  unfold fullNameLayout
  cases table.schema with
  | none => simp
  | some schema =>
    by_cases hname : table.name = "" <;> by_cases hschema : schema = "" <;> simp [hname, hschema]

@[simp] theorem Table.listed_qualifierLayout (table : Table) :
    table.qualifierLayout.listed notes = [] := by
  unfold qualifierLayout
  cases table.label <;> simp

@[simp] theorem Table.listed_layout (table : Table) : table.layout.listed notes = [] := by
  simp [layout]

@[simp] theorem Column.listed_layout (column : Column) : column.layout.listed notes = [] := by
  unfold layout
  cases column.table with
  | none => simp
  | some table => by_cases h : table.qualifier = "" <;> simp [h]

@[simp] theorem PathStep.listed_layout (step : PathStep) : step.layout.listed notes = [] := by
  simp [layout]

@[simp] theorem Hint.listed_layout (hint : Hint) : hint.layout.listed notes = [] := by
  simp [layout]

@[simp] theorem Literal.listed_layout (l : Literal) : l.layout.listed notes = [] := by
  cases l <;> simp [layout, QuotedText.layout]

@[simp] theorem Parameter.listed_layout (p : Parameter) : p.layout.listed notes = [] := by
  cases p <;> simp [layout]

@[simp] theorem DataType.listed_layout (type : DataType) : type.layout.listed notes = [] := by
  induction type with
  | array element ih => simp [layout, ih]
  | _ => simp [layout]

/-! ## Notes on clauses -/

@[simp] theorem Arguments.listed_layout (brackets : Bool) (arguments : List Layout) :
    (Arguments.layout brackets arguments).listed notes =
      arguments.flatMap (Layout.listed notes) := by
  cases brackets <;> simp [Arguments.layout]

namespace OrderKey

theorem listed_layout (key : OrderKey Layout) :
    key.layout.listed notes = key.parts.flatMap (Part.listed notes) := by
  simp [layout, parts]

theorem listed_clauseLayout (intro : String) (keys : List (OrderKey Layout)) :
    (clauseLayout intro keys).listed notes = (keys.flatMap parts).flatMap (Part.listed notes) := by
  cases keys with
  | nil => simp [clauseLayout]
  | cons key rest => simp [clauseLayout, listed_layout, List.flatMap_map, List.flatMap_assoc]

end OrderKey

theorem Keep.listed_layout (keep : Keep Layout) :
    keep.layout.listed notes = keep.parts.flatMap (Part.listed notes) := by
  simp [layout, parts, OrderKey.listed_clauseLayout]

theorem FrameBound.listed_layout (bound : FrameBound Layout) :
    bound.layout.listed notes = bound.parts.flatMap (Part.listed notes) := by
  cases bound <;> simp [layout, parts]

theorem FrameExtent.listed_layout (extent : FrameExtent Layout) :
    extent.layout.listed notes = extent.parts.flatMap (Part.listed notes) := by
  cases extent <;> simp [layout, parts, FrameBound.listed_layout]

theorem Frame.listed_layout (frame : Frame Layout) :
    frame.layout.listed notes = frame.parts.flatMap (Part.listed notes) := by
  simp [layout, parts, FrameExtent.listed_layout]

theorem When.listed_layout (branch : When Layout) :
    branch.layout.listed notes = branch.parts.flatMap (Part.listed notes) := by
  simp [layout, parts]

theorem Case.listed_layout (c : Case Layout) :
    c.layout.listed notes = c.parts.flatMap (Part.listed notes) := by
  simp [layout, parts, When.listed_layout, List.flatMap_map, List.flatMap_assoc]

namespace Call

theorem listed_argumentsLayout (call : Call Layout) :
    call.argumentsLayout.listed notes =
      (call.arguments.toList.flatten.map .expr).flatMap (Part.listed notes) := by
  unfold argumentsLayout
  cases call.arguments <;> cases call.quantifier <;> simp [List.flatMap_map]

theorem listed_layout (call : Call Layout) :
    call.layout.listed notes = call.parts.flatMap (Part.listed notes) := by
  have hfield : (Layout.ofOption call.field fun f => .token "." ++ .verbatim f).listed notes = [] :=
    Layout.listed_ofOption_eq_nil notes (by simp) _
  simp only [layout, parts, Layout.listed_append, hfield, listed_argumentsLayout,
    List.flatMap_append]
  simp [Keep.listed_layout, List.flatMap_assoc]

end Call

namespace Analytic

theorem listed_argumentsLayout (a : Analytic Layout) :
    a.argumentsLayout.listed notes = a.argumentParts.flatMap (Part.listed notes) := by
  unfold argumentsLayout argumentParts
  cases a.argument <;> cases a.offset <;> simp [List.flatMap_map]

theorem listed_partitionLayout (a : Analytic Layout) :
    a.partitionLayout.listed notes = a.partitionBy.flatMap (Layout.listed notes) := by
  unfold partitionLayout
  cases a.partitionBy <;> simp

theorem listed_orderLayout (a : Analytic Layout) :
    a.orderLayout.listed notes = a.orderParts.flatMap (Part.listed notes) := by
  unfold orderLayout orderParts
  cases a.orderBy <;>
    simp [OrderKey.listed_clauseLayout, Frame.listed_layout, List.flatMap_assoc]

theorem listed_layout (a : Analytic Layout) :
    a.layout.listed notes = a.parts.flatMap (Part.listed notes) := by
  simp [layout, parts, listed_argumentsLayout, listed_partitionLayout, listed_orderLayout,
    Keep.listed_layout, List.flatMap_map, List.flatMap_assoc]

end Analytic

theorem GroupConcat.listed_layout (g : GroupConcat Layout) :
    g.layout.listed notes = g.parts.flatMap (Part.listed notes) := by
  simp [layout, parts, OrderKey.listed_clauseLayout, List.flatMap_map, List.flatMap_assoc]

/-! ## Notes on queries -/

theorem SelectItem.listed_layout (item : SelectItem Layout) :
    item.layout.listed notes = item.parts.flatMap (Part.listed notes) := by
  cases item <;> simp [layout, parts]

namespace Select

theorem listed_groupLayout (select : Select Layout) :
    select.groupLayout.listed notes = select.groupBy.flatMap (Layout.listed notes) := by
  unfold groupLayout
  cases select.groupBy <;> simp

theorem listed_body (select : Select Layout) :
    select.body.listed notes = select.parts.flatMap (Part.listed notes) := by
  have hsource :
      (Layout.ofOption select.source fun t => .token " FROM " ++ t.layout).listed notes = [] :=
    Layout.listed_ofOption_eq_nil notes (by simp) _
  have hword : (Layout.ofOption select.condition fun _ => .token " WHERE ").listed notes = [] :=
    Layout.listed_ofOption_eq_nil notes (by simp) _
  simp only [body, layoutBefore, layoutAfter, Body.listed, Layout.listed_append, hsource,
    hword]
  simp [parts, listed_groupLayout, SelectItem.listed_layout, OrderKey.listed_clauseLayout,
    List.flatMap_map, List.flatMap_assoc]

end Select

namespace Query

theorem listed_body (query : Query Layout) :
    query.body.listed notes = query.parts.flatMap (Part.listed notes) := by
  induction query with
  | plain select => exact Select.listed_body notes select
  | compound op all left right ihl ihr => simp [body, parts, ihl, ihr]

theorem isCompound_body (query : Query Layout) : query.body.isCompound = query.isCompound := by
  cases query <;> rfl

end Query

theorem CommonTable.listed_layout (table : CommonTable Layout) :
    table.layout.listed notes = table.parts.flatMap (Part.listed notes) := by
  simp [layout, parts, Query.listed_body, Query.text_body, Part.listed, Handed.handoff, Handed.map,
    Handed.text, text, map]

namespace SubQuery

theorem listed_withLayout (sub : SubQuery Layout) :
    sub.withLayout.listed notes =
      (sub.commonTables.flatMap CommonTable.parts).flatMap (Part.listed notes) := by
  unfold withLayout
  cases sub.commonTables <;>
    simp [CommonTable.listed_layout, List.flatMap_map, List.flatMap_assoc]

theorem listed_layout (sub : SubQuery Layout) :
    sub.layout.listed notes = sub.parts.flatMap (Part.listed notes) := by
  simp [layout, parts, listed_withLayout, Query.listed_body, Query.text_body, Query.isCompound_body,
    Part.listed, Handed.handoff, Handed.map, Handed.text]

end SubQuery

theorem Items.listed_layout (items : Items Layout) :
    items.layout.listed notes = items.parts.flatMap (Part.listed notes) := by
  cases items with
  | list values => simp [layout, parts, List.flatMap_map]
  | rows lists =>
    rw [layout, parts, Layout.listed_commaSeparated, List.flatMap_map, List.flatMap_map,
      List.flatten_eq_flatMap, List.flatMap_assoc]
    simp
  | query sub => exact SubQuery.listed_layout notes sub

theorem Member.listed_layout (join : OuterJoin) (member : Member Layout) :
    (member.layout join).listed notes = member.parts.flatMap (Part.listed notes) := by
  cases member with
  | expr e => simp [layout, parts]
  | items is => exact Items.listed_layout notes is

/-! ## Notes on expressions -/

theorem Node.listed_layout (n : Node Layout) :
    n.layout.listed notes = n.parts.flatMap (Part.listed notes) := by
  cases n with
  | cast expr type keyword => cases keyword <;> simp [layout, parts]
  | _ =>
    simp [layout, parts, infixed, Case.listed_layout, Call.listed_layout, Analytic.listed_layout,
      GroupConcat.listed_layout, SubQuery.listed_layout, Items.listed_layout, Member.listed_layout,
      List.flatMap_map]

namespace Handed

theorem handoff_map {ε δ : Type} (f : ε → δ) (h : Handed ε) : (h.map f).handoff = h.handoff := by
  cases h with
  | query q => cases q <;> rfl
  | commonTable table => rfl

end Handed

/-- A function that lists a tree part by part, with the given notes, lists its layout. -/
theorem Expr.listed_layout {f : Expr → List α}
    (h : ∀ n : Node Expr, f (.node n) =
      n.parts.flatMap fun
        | .expr e => f e
        | .isolated e => notes.isolate (f e)
        | .handed h => [notes.note h.handoff h.sql])
    (e : Expr) : e.layout.listed notes = f e := by
  -- Both sides obey the same rule, part by part.
  let rule : Part (Expr × List α) → List α := fun
    | .expr e => e.2
    | .isolated e => notes.isolate e.2
    | .handed h => [notes.note h.handoff (h.map Prod.fst).sql]
  have htext : Layout.text ∘ Expr.layout = Expr.sql := funext Expr.text_layout
  have hfst : ∀ (k : Expr → List α) (h : Handed Expr),
      (h.map fun e => (e, k e)).map Prod.fst = h := by
    intro k h
    rw [Handed.map_map]
    exact congrFun Handed.map_id h
  have hlayout : ∀ n : Node Expr, (Expr.node n).layout.listed notes =
      (n.map fun e => (e, e.layout.listed notes)).parts.flatMap rule := by
    intro n
    rw [layout_node, Node.listed_layout, Node.parts_map, Node.parts_map, List.flatMap_map,
      List.flatMap_map]
    refine congrArg (List.flatMap · n.parts) (funext fun part => ?_)
    cases part with
    | expr e => rfl
    | isolated e => rfl
    | handed h =>
      simp only [Part.map, Part.listed, rule, hfst, Handed.handoff_map, Handed.map_map, htext,
        Handed.text_map_sql]
  have htree : ∀ n : Node Expr, f (.node n) =
      (n.map fun e => (e, f e)).parts.flatMap rule := by
    intro n
    rw [h, Node.parts_map, List.flatMap_map]
    refine congrArg (List.flatMap · n.parts) (funext fun part => ?_)
    cases part with
    | expr e => rfl
    | isolated e => rfl
    | handed h => simp only [Part.map, rule, hfst, Handed.handoff_map]
  calc e.layout.listed notes
    _ = para (fun n => n.parts.flatMap rule) e :=
      eq_para _ (f := fun e => e.layout.listed notes) hlayout e
    _ = f e := (eq_para _ (f := f) htree e).symm

end SqlText
