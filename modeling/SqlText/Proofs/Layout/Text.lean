import SqlText.Expr.Clauses
import SqlText.Expr.Layout
import SqlText.Expr.Lemmas

/-!
# The text of a layout

`Layout.text` reads a layout as the text that the built-in way makes of it : tokens and verbatim
pieces as they are, isolated parts and queries by their own texts. The layout of every clause reads
as the clause's text over the texts of its parts (`text_layout`, one lemma for each clause), so the
layout of a tree reads as its SQL text (`Expr.text_layout`).

Layouts and texts are grouped differently, a layout keeping the blanks of an operator with its word,
so the lemmas for clauses hold up to the associativity of concatenation.
-/

namespace SqlText

mutual

/-- The text of a layout in the built-in way. -/
def Layout.text : Layout → String
  | .empty => ""
  | .token text => text
  | .verbatim text => text
  | .append first second => first.text ++ second.text
  | .isolated inner => inner.text
  | .commonTable name columns body =>
    name ++ CommonTable.columnsText columns ++ " AS (" ++ body.text ++ ")"
  | .query body => body.text

/-- The text of a query in the built-in way. -/
def Body.text : Body → String
  | .select before condition after => "SELECT " ++ before.text ++ condition.text ++ after.text
  | .compound left joiner right => left.text ++ joiner ++ right.text

end

/-! ## Ways of putting layouts together -/

namespace Layout

attribute [simp] Layout.text

@[simp] theorem text_append (first second : Layout) :
    (first ++ second).text = first.text ++ second.text :=
  rfl

@[simp] theorem text_onlyIf (condition : Bool) (l : Layout) :
    (onlyIf condition l).text = Text.onlyIf condition l.text := by
  cases condition <;> simp [onlyIf, Text.onlyIf]

@[simp] theorem text_ofOption {α : Type} (part : Option α) (layout : α → Layout) :
    (ofOption part layout).text = Text.ofOption part fun a => (layout a).text := by
  cases part <;> simp [ofOption, Text.ofOption]

@[simp] theorem ofOption_map {α β : Type} (f : α → β) (part : Option α) (layout : β → Layout) :
    ofOption (part.map f) layout = ofOption part fun a => layout (f a) := by
  cases part <;> rfl

@[simp] theorem text_concat (ls : List Layout) :
    (concat ls).text = String.join (ls.map Layout.text) := by
  induction ls with
  | nil => simp [concat]
  | cons l rest ih => simp [concat, ih]

@[simp] theorem text_separatedBy (separator : String) :
    ∀ ls : List Layout, (separatedBy separator ls).text = separator.intercalate (ls.map Layout.text)
  | [] => by simp [separatedBy]
  | [last] => by simp [separatedBy]
  | first :: second :: rest => by
    have ih := text_separatedBy separator (second :: rest)
    simp only [List.map_cons] at ih
    simp [separatedBy, ih, String.intercalate_cons_cons, String.append_assoc]

@[simp] theorem text_commaSeparated (ls : List Layout) :
    (commaSeparated ls).text = Text.commaSeparated (ls.map Layout.text) :=
  text_separatedBy ", " ls

@[simp] theorem text_bracketed (l : Layout) : (bracketed l).text = Text.bracketed l.text := by
  simp [bracketed, Text.bracketed]

@[simp] theorem text_quoted (text : String) : (quoted text).text = Text.quoted text := by
  simp [quoted, Text.quoted]

end Layout

namespace Text

@[simp] theorem ofOption_none {α : Type} (text : α → String) : ofOption none text = "" :=
  rfl

@[simp] theorem ofOption_some {α : Type} (a : α) (text : α → String) :
    ofOption (some a) text = text a :=
  rfl

@[simp] theorem ofOption_id (part : Option String) :
    ofOption part id = ofOption part fun text => text :=
  rfl

@[simp] theorem ofOption_map {α β : Type} (f : α → β) (part : Option α) (text : β → String) :
    ofOption (part.map f) text = ofOption part fun a => text (f a) := by
  cases part <;> rfl

end Text

/-! ## Leaves of the tree -/

theorem Alias.text_layout (label : Alias) : label.layout.text = label.text := by
  simp [Alias.layout, Alias.text]

namespace Table

@[simp] theorem text_fullNameLayout (table : Table) :
    table.fullNameLayout.text = table.fullName := by
  unfold fullNameLayout fullName
  cases table.schema with
  | none => simp
  | some schema => grind [Layout.text, Layout.text_append]

@[simp] theorem text_qualifierLayout (table : Table) :
    table.qualifierLayout.text = table.qualifier := by
  unfold qualifierLayout qualifier
  cases table.label <;> simp

theorem text_layout (table : Table) : table.layout.text = table.text := by
  simp [layout, text, Alias.text_layout]

end Table

theorem Column.text_layout (column : Column) : column.layout.text = column.text := by
  unfold layout text
  cases column.table with
  | none => simp
  | some table => by_cases h : table.qualifier = "" <;> simp [h]

theorem PathStep.text_layout (step : PathStep) : step.layout.text = step.text := by
  simp [layout, text]

theorem Hint.text_layout (hint : Hint) : hint.layout.text = hint.text := by
  simp [layout, text]

theorem QuotedText.text_layout (q : QuotedText) : q.layout.text = q.text := by
  simp [layout, text]

theorem Literal.text_layout (l : Literal) : l.layout.text = l.text := by
  cases l <;> simp [layout, text, QuotedText.text_layout, String.append_assoc]

theorem Parameter.text_layout (p : Parameter) : p.layout.text = p.text := by
  cases p <;> simp [layout, text]

theorem DataType.text_layout (type : DataType) : type.layout.text = type.sql := by
  induction type with
  | array element ih => simp [layout, sql, ih]
  | _ => simp [layout, sql]

/-! ## Clauses -/

theorem Arguments.text_layout (brackets : Bool) (arguments : List Layout) :
    (Arguments.layout brackets arguments).text =
      Arguments.text brackets (arguments.map Layout.text) := by
  cases brackets <;> simp [Arguments.layout, Arguments.text]

namespace OrderKey

theorem text_layout (key : OrderKey Layout) : key.layout.text = (key.map Layout.text).text := by
  simp [layout, text, map]

theorem text_clauseLayout (intro : String) (keys : List (OrderKey Layout)) :
    (clauseLayout intro keys).text = clauseText intro (keys.map (OrderKey.map Layout.text)) := by
  cases keys with
  | nil => simp [clauseLayout, clauseText]
  | cons key rest => simp [clauseLayout, clauseText, text_layout, Function.comp_def]

end OrderKey

theorem Keep.text_layout (keep : Keep Layout) :
    keep.layout.text = (keep.map Layout.text).text := by
  have hr : (keep.map Layout.text).rank = keep.rank := rfl
  simp only [layout, text, hr, Layout.text_append, OrderKey.text_clauseLayout]
  simp [map]

theorem FrameBound.text_layout (bound : FrameBound Layout) :
    bound.layout.text = (bound.map Layout.text).text := by
  cases bound <;> simp [layout, text, map]

theorem FrameExtent.text_layout (extent : FrameExtent Layout) :
    extent.layout.text = (extent.map Layout.text).text := by
  cases extent <;> simp [layout, text, map, FrameBound.text_layout]

theorem Frame.text_layout (frame : Frame Layout) :
    frame.layout.text = (frame.map Layout.text).text := by
  simp [layout, text, map, FrameExtent.text_layout]

theorem When.text_layout (branch : When Layout) :
    branch.layout.text = (branch.map Layout.text).text := by
  simp [layout, text, map]

theorem Case.text_layout (c : Case Layout) : c.layout.text = (c.map Layout.text).text := by
  simp [layout, text, map, When.text_layout, Function.comp_def]

namespace Call

theorem text_argumentsLayout (call : Call Layout) :
    call.argumentsLayout.text = (call.map Layout.text).argumentsText := by
  unfold argumentsLayout argumentsText
  cases ha : call.arguments <;> cases hq : call.quantifier <;>
    simp [map, ha, hq, Arguments.text_layout]

theorem text_layout (call : Call Layout) : call.layout.text = (call.map Layout.text).text := by
  have ha := text_argumentsLayout call
  simp only [layout, text, Layout.text_append, Layout.text_onlyIf, Layout.text_ofOption, ha]
  simp [map, Keep.text_layout]

end Call

namespace Analytic

theorem text_argumentsLayout (a : Analytic Layout) :
    a.argumentsLayout.text = (a.map Layout.text).argumentsText := by
  unfold argumentsLayout argumentsText
  cases ha : a.argument <;> simp [map, ha, String.append_assoc]

theorem text_partitionLayout (a : Analytic Layout) :
    a.partitionLayout.text = (a.map Layout.text).partitionText := by
  unfold partitionLayout partitionText
  cases hp : a.partitionBy <;> simp [map, hp]

theorem text_orderLayout (a : Analytic Layout) :
    a.orderLayout.text = (a.map Layout.text).orderText := by
  unfold orderLayout orderText
  cases ho : a.orderBy <;> simp [map, ho, OrderKey.text_clauseLayout, Frame.text_layout]

theorem text_layout (a : Analytic Layout) : a.layout.text = (a.map Layout.text).text := by
  simp only [layout, text, Layout.text_append, text_argumentsLayout, text_partitionLayout,
    text_orderLayout, Layout.text_onlyIf, Layout.text_ofOption]
  simp [map, Keep.text_layout, String.append_assoc]

end Analytic

theorem GroupConcat.text_layout (g : GroupConcat Layout) :
    g.layout.text = (g.map Layout.text).text := by
  -- The equation of `text` is slow to derive, its unfolding is not.
  delta text
  simp [layout, map, Arguments.text_layout, OrderKey.text_clauseLayout]

/-! ## Queries -/

theorem SelectItem.text_layout (item : SelectItem Layout) :
    item.layout.text = (item.map Layout.text).text := by
  cases item <;> simp [layout, text, map, Alias.text_layout]

namespace Select

theorem text_groupLayout (select : Select Layout) :
    select.groupLayout.text = (select.map Layout.text).groupText := by
  unfold groupLayout groupText
  cases hg : select.groupBy <;> simp [map, hg]

theorem text_body (select : Select Layout) : select.body.text = (select.map Layout.text).text := by
  have hg := text_groupLayout select
  delta text
  simp only [body, Body.text, layoutBefore, layoutAfter, Layout.text_append, hg]
  cases hc : select.condition <;>
    simp [map, hc, SelectItem.text_layout, Table.text_layout,
      OrderKey.text_clauseLayout, Function.comp_def, String.append_assoc]

end Select

theorem Query.text_body (query : Query Layout) :
    query.body.text = (query.map Layout.text).text := by
  induction query with
  | plain select => exact Select.text_body select
  | compound op all left right ihl ihr => simp [body, Body.text, text, map, ihl, ihr]

theorem CommonTable.text_layout (table : CommonTable Layout) :
    table.layout.text = (table.map Layout.text).text := by
  simp [layout, text, map, Query.text_body]

namespace SubQuery

theorem text_withLayout (sub : SubQuery Layout) :
    sub.withLayout.text = (sub.map Layout.text).withText := by
  unfold withLayout withText
  cases ht : sub.commonTables <;>
    simp [map, ht, CommonTable.text_layout, Function.comp_def]

theorem text_layout (sub : SubQuery Layout) : sub.layout.text = (sub.map Layout.text).text := by
  simp only [layout, text, Layout.text_append, text_withLayout, Layout.text, Query.text_body]
  simp [map]

end SubQuery

theorem Items.text_layout (items : Items Layout) :
    items.layout.text = (items.map Layout.text).text := by
  cases items <;>
    simp [layout, text, map, Arguments.text_layout, SubQuery.text_layout, Function.comp_def]

theorem Member.text_layout (join : OuterJoin) (member : Member Layout) :
    (member.layout join).text = (member.map Layout.text).text join := by
  cases member <;> simp [layout, text, map, Items.text_layout]

/-! ## Expressions -/

theorem Node.text_layout (n : Node Layout) : n.layout.text = (n.map Layout.text).text := by
  cases n with
  | cast expr type keyword => cases keyword <;> simp [layout, text, map, DataType.text_layout]
  | _ =>
    simp [layout, text, map, infixed, String.append_assoc, Arguments.text_layout, Case.text_layout,
      Call.text_layout, Analytic.text_layout, GroupConcat.text_layout, Column.text_layout,
      PathStep.text_layout, Literal.text_layout, Parameter.text_layout, Hint.text_layout,
      SubQuery.text_layout, Items.text_layout, Member.text_layout, Function.comp_def]

/-- The layout of a tree reads as its SQL text. -/
theorem Expr.text_layout (e : Expr) : e.layout.text = e.sql := by
  refine Expr.eq_fold (f := fun e => e.layout.text) (fun n => ?_) e
  rw [Expr.layout_node, Node.text_layout, Node.map_map]
  rfl

end SqlText
