import SqlText.Proofs.Render.BuiltIn
import SqlText.Proofs.Text.Pieces

/-!
# Values that are written on their own

Besides expressions there are clauses, names and types that have a text of their own. `Kind` lists
them, with the text of each value (`Kind.sql`) and the steps by which it is written (`Kind.steps`).

A list has two kinds, with and without its brackets, and so has a table : where it is introduced,
and where it only qualifies the names of columns.

Whatever the value, its steps write its text and cannot fail as long as queries are written in the
built-in way (`Kind.run_steps`).
-/

namespace SqlText

/-- The kinds of values that have a text of their own. -/
inductive Kind where
  | expr
  /-- An expression, seen as its root with the sub-expressions below it. -/
  | node
  | items
  | arguments (brackets : Bool)
  | call
  | analytic
  | groupConcat
  | case
  | keep
  | orderKey
  | frameBound
  | frame
  | subQuery
  | query
  | select
  | commonTable
  | table
  /-- A table in front of the names of its columns. -/
  | qualifier
  | column
  | literal
  | parameter
  | dataType

/-- A table that has something to put in front of the names of its columns. -/
abbrev Qualifier : Type := { table : Table // table.qualifier ≠ "" }

namespace Kind

variable {ε δ φ : Type}

/-- The values of a kind, whose sub-expressions are of type `ε`. -/
abbrev Over : Kind → Type → Type
  | expr, ε => ε
  | node, ε => Node ε
  | items, ε => Items ε
  | arguments _, ε => List ε
  | call, ε => Call ε
  | analytic, ε => Analytic ε
  | groupConcat, ε => GroupConcat ε
  | case, ε => Case ε
  | keep, ε => Keep ε
  | orderKey, ε => OrderKey ε
  | frameBound, ε => FrameBound ε
  | frame, ε => Frame ε
  | subQuery, ε => SubQuery ε
  | query, ε => Query ε
  | select, ε => Select ε
  | commonTable, ε => CommonTable ε
  | table, _ => Table
  | qualifier, _ => Qualifier
  | column, _ => Column
  | literal, _ => Literal
  | parameter, _ => Parameter
  | dataType, _ => DataType

/-- The SQL text of a value. -/
def sql : (k : Kind) → k.Over Expr → String
  | expr, e => e.sql
  | node, n => (Expr.node n).sql
  | items, is => is.sql
  | arguments brackets, es => Arguments.text brackets (es.map Expr.sql)
  | call, c => c.sql
  | analytic, a => a.sql
  | groupConcat, g => g.sql
  | case, c => c.sql
  | keep, k => k.sql
  | orderKey, key => key.sql
  | frameBound, bound => bound.sql
  | frame, f => f.sql
  | subQuery, sub => sub.sql
  | query, q => q.sql
  | select, s => s.sql
  | commonTable, t => t.sql
  | table, t => t.text
  | qualifier, t => t.val.qualifier
  | column, c => c.text
  | literal, l => l.text
  | parameter, p => p.text
  | dataType, t => t.sql

/-! ## Sub-expressions -/

/-- Applies a function to the sub-expressions of a value. -/
def map (f : ε → δ) : (k : Kind) → k.Over ε → k.Over δ
  | expr, e => f e
  | node, n => n.map f
  | items, is => is.map f
  | arguments _, es => es.map f
  | call, c => c.map f
  | analytic, a => a.map f
  | groupConcat, g => g.map f
  | case, c => c.map f
  | keep, k => k.map f
  | orderKey, key => key.map f
  | frameBound, bound => bound.map f
  | frame, fr => fr.map f
  | subQuery, sub => sub.map f
  | query, q => q.map f
  | select, s => s.map f
  | commonTable, t => t.map f
  | table, t => t
  | qualifier, t => t
  | column, c => c
  | literal, l => l
  | parameter, p => p
  | dataType, t => t

/-- The text of a value, given the texts of its sub-expressions. -/
def text : (k : Kind) → k.Over String → String
  | expr, t => t
  | node, n => n.text
  | items, is => is.text
  | arguments brackets, es => Arguments.text brackets es
  | call, c => c.text
  | analytic, a => a.text
  | groupConcat, g => g.text
  | case, c => c.text
  | keep, k => k.text
  | orderKey, key => key.text
  | frameBound, bound => bound.text
  | frame, f => f.text
  | subQuery, sub => sub.text
  | query, q => q.text
  | select, s => s.text
  | commonTable, t => t.text
  | table, t => t.text
  | qualifier, t => t.val.qualifier
  | column, c => c.text
  | literal, l => l.text
  | parameter, p => p.text
  | dataType, t => t.sql

/-- The sub-expressions of a value that are written, in their order. -/
def written : (k : Kind) → k.Over ε → List ε
  | expr, e => [e]
  | node, n => n.written
  | items, is => is.children
  | arguments _, es => es
  | call, c => c.children
  | analytic, a => a.written
  | groupConcat, g => g.children
  | case, c => c.children
  | keep, k => k.children
  | orderKey, key => key.children
  | frameBound, bound => bound.children
  | frame, f => f.children
  | subQuery, sub => sub.children
  | query, q => q.children
  | select, s => s.children
  | commonTable, t => t.children
  | _, _ => []

theorem map_map (g : δ → φ) (f : ε → δ) :
    ∀ (k : Kind) (x : k.Over ε), k.map g (k.map f x) = k.map (g ∘ f) x
  | expr, _ => rfl
  | node, n => n.map_map g f
  | items, is => is.map_map g f
  | arguments _, _ => List.map_map
  | call, c => c.map_map g f
  | analytic, a => a.map_map g f
  | groupConcat, c => c.map_map g f
  | case, c => c.map_map g f
  | keep, k => k.map_map g f
  | orderKey, key => key.map_map g f
  | frameBound, bound => bound.map_map g f
  | frame, fr => fr.map_map g f
  | subQuery, sub => sub.map_map g f
  | query, q => q.map_map g f
  | select, s => s.map_map g f
  | commonTable, t => t.map_map g f
  | table, _ => rfl
  | qualifier, _ => rfl
  | column, _ => rfl
  | literal, _ => rfl
  | parameter, _ => rfl
  | dataType, _ => rfl

/-- The text of a value is put together from the texts of its sub-expressions. -/
theorem sql_eq (k : Kind) (x : k.Over Expr) : k.sql x = k.text (k.map Expr.sql x) := by
  cases k with
  | node => exact Expr.sql_node x
  | _ => rfl

/-- The text of a value consists of words and of the texts of the sub-expressions that are
written. -/
theorem composed : ∀ (k : Kind) (x : k.Over ε), Composed (k.written x) fun f => k.text (k.map f x)
  | expr, e => Composed.part e
  | node, n => n.composed
  | items, is => is.composed
  | arguments brackets, es => Arguments.composed brackets es
  | call, c => c.composed
  | analytic, a => a.composed
  | groupConcat, g => g.composed
  | case, c => c.composed
  | keep, k => k.composed
  | orderKey, key => key.composed
  | frameBound, bound => bound.composed
  | frame, f => f.composed
  | subQuery, sub => sub.composed
  | query, q => q.composed
  | select, s => s.composed
  | commonTable, t => t.composed
  | table, t => Composed.word t.text
  | qualifier, t => Composed.word t.val.qualifier
  | column, c => Composed.word c.text
  | literal, l => Composed.word l.text
  | parameter, p => Composed.word p.text
  | dataType, t => Composed.word t.sql

/-! ## The steps that write a value -/

/-- The steps by which a value is written on its own. A query, a select or a common table is not
handed over itself. -/
def steps (renderer : Option QueryRenderer) : (k : Kind) → k.Over Expr → List Step
  | expr, e => (Fragment.expr e).steps renderer
  | node, n => (Fragment.expr (.node n)).steps renderer
  | items, is => (Fragment.items is).steps renderer
  | arguments brackets, es => (Fragment.list es brackets).steps renderer
  | call, c => (c.map Expr.layout).layout.steps renderer
  | analytic, a => (a.map Expr.layout).layout.steps renderer
  | groupConcat, g => (g.map Expr.layout).layout.steps renderer
  | case, c => (c.map Expr.layout).layout.steps renderer
  | keep, k => (k.map Expr.layout).layout.steps renderer
  | orderKey, key => (Fragment.orderKey key).steps renderer
  | frameBound, bound => (bound.map Expr.layout).layout.steps renderer
  | frame, f => (f.map Expr.layout).layout.steps renderer
  | subQuery, sub => (sub.map Expr.layout).layout.steps renderer
  | query, q => (Fragment.query q).steps renderer
  | select, s => (s.map Expr.layout).body.builtIn renderer
  | commonTable, t => (Fragment.commonTable t).steps renderer
  | table, t => t.layout.steps renderer
  | qualifier, t => t.val.qualifierLayout.steps renderer
  | column, c => c.layout.steps renderer
  | literal, l => l.layout.steps renderer
  | parameter, p => p.layout.steps renderer
  | dataType, t => t.layout.steps renderer

theorem allowedBy_of_mem_steps (renderer : Option QueryRenderer) (k : Kind) (x : k.Over Expr) :
    ∀ step ∈ k.steps renderer x, step.AllowedBy renderer := by
  cases k with
  | expr | node | items | arguments | orderKey | query | commonTable =>
    rw [steps]
    exact Fragment.allowedBy_of_mem_steps renderer _
  | select => exact Body.allowedBy_of_mem_builtIn renderer _
  | _ => exact Layout.allowedBy_of_mem_steps renderer _

/-- In the built-in way the steps of a value write its SQL text. -/
theorem text_steps {renderer : Option QueryRenderer} (hr : IsBuiltIn renderer) (k : Kind)
    (x : k.Over Expr) : Steps.text (k.steps renderer x) = k.sql x := by
  have hlayout : Layout.text ∘ Expr.layout = Expr.sql := funext Expr.text_layout
  cases k with
  | expr | node | items | arguments | orderKey | query | commonTable =>
    rw [steps]
    exact Fragment.text_steps hr _
  | call => rw [steps, sql, Layout.text_steps hr, Call.text_layout, Call.map_map, hlayout, Call.sql]
  | analytic =>
    rw [steps, sql, Layout.text_steps hr, Analytic.text_layout, Analytic.map_map, hlayout,
      Analytic.sql]
  | groupConcat =>
    rw [steps, sql, Layout.text_steps hr, GroupConcat.text_layout, GroupConcat.map_map, hlayout,
      GroupConcat.sql]
  | case => rw [steps, sql, Layout.text_steps hr, Case.text_layout, Case.map_map, hlayout, Case.sql]
  | keep => rw [steps, sql, Layout.text_steps hr, Keep.text_layout, Keep.map_map, hlayout, Keep.sql]
  | frameBound =>
    rw [steps, sql, Layout.text_steps hr, FrameBound.text_layout, FrameBound.map_map, hlayout,
      FrameBound.sql]
  | frame =>
    rw [steps, sql, Layout.text_steps hr, Frame.text_layout, Frame.map_map, hlayout, Frame.sql]
  | subQuery =>
    rw [steps, sql, Layout.text_steps hr, SubQuery.text_layout, SubQuery.map_map, hlayout,
      SubQuery.sql]
  | select =>
    rw [steps, sql, Body.text_builtIn hr, Select.text_body, Select.map_map, hlayout, Select.sql]
  | table => rw [steps, sql, Layout.text_steps hr, Table.text_layout]
  | qualifier => rw [steps, sql, Layout.text_steps hr, Table.text_qualifierLayout]
  | column => rw [steps, sql, Layout.text_steps hr, Column.text_layout]
  | literal => rw [steps, sql, Layout.text_steps hr, Literal.text_layout]
  | parameter => rw [steps, sql, Layout.text_steps hr, Parameter.text_layout]
  | dataType => rw [steps, sql, Layout.text_steps hr, DataType.text_layout]

/-- In the built-in way a value of any kind is written without failure, and what is appended is its
SQL text. -/
theorem run_steps {renderer : Option QueryRenderer} (hr : IsBuiltIn renderer) (k : Kind)
    (x : k.Over Expr) (p : Progress) :
    (p.run (k.steps renderer x)).2 = none ∧
      (p.run (k.steps renderer x)).1.buffer = p.buffer ++ k.sql x := by
  have hcalm : ∀ step ∈ k.steps renderer x, step.Calm := fun step hs =>
    (k.allowedBy_of_mem_steps renderer x step hs).calm hr
  rw [p.run_of_calm _ hcalm, text_steps hr]
  exact ⟨rfl, rfl⟩

end Kind

/-- An expression that is rendered to a text of its own in the built-in way : the text handed out is
its SQL text, and the session stays as it is. -/
theorem Session.renderToText_of_isBuiltIn (s : Session) (hr : IsBuiltIn s.renderer) (e : Expr) :
    (s.renderToText e).1 = s ∧ (s.renderToText e).2.fault = none ∧
      (s.renderToText e).2.text = some e.sql := by
  have hcalm : ∀ step ∈ e.layout.steps s.renderer, step.Calm := fun step hs =>
    (e.layout.allowedBy_of_mem_steps s.renderer step hs).calm hr
  have hrun := (Progress.start "" s.budget).run_of_calm _ hcalm
  rw [Layout.text_steps hr, Expr.text_layout] at hrun
  rw [renderToText, hrun]
  exact ⟨rfl, rfl, congrArg some String.empty_append⟩

end SqlText
