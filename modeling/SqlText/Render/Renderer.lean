import SqlText.Clause.Query
import SqlText.Expr.Layout
import SqlText.Render.Step

/-!
# Query renderers

Queries inside an expression are handed to a query renderer, if one is configured, and otherwise
written in the built-in way. `Layout.steps` turns a layout into steps for a given renderer.

In the built-in way a query is one piece: the operands of a set operator and the query of a common
table are part of it and are not handed over again. Expressions inside the query go back to the
configured renderer, so queries nested in them are handed over in their turn. Isolated parts never
reach the configured renderer, but their queries are announced like all others.
-/

namespace SqlText

/-- The renderers that can be configured. -/
inductive QueryRenderer where
  /-- Writes queries in the built-in way. -/
  | plain
  /-- Writes queries in the built-in way; its calls are kept for inspection. -/
  | recording
  /-- Refuses every call, for a query after writing a mark. -/
  | failing
  /-- Fails with a formatting error. -/
  | unformattable
  /-- Writes a mark for a query and the name of a common table. -/
  | placeholder
  /-- Writes only the conditions of selects. -/
  | outline
  /-- Writes queries in the built-in way until its budget of calls is used up. -/
  | limited (budget : Nat)
  deriving DecidableEq

namespace QueryRenderer

/-- How a renderer answers a call, given the steps of the built-in way and of the outline. -/
def answer (renderer : QueryRenderer) (handoff : Handoff) (builtIn outlined : Unit → List Step) :
    List Step :=
  match renderer, handoff with
  | plain, _ => builtIn ()
  | recording, _ => builtIn ()
  | failing, .query _ => [.write "<partial>", .fail .unsupportedQuery]
  | failing, .commonTable _ => [.fail .unsupportedCommonTable]
  | unformattable, _ => [.fail .unformattable]
  | placeholder, .query _ => [.write "<query>"]
  | placeholder, .commonTable name => [.write name]
  | outline, _ => outlined ()
  | limited _, _ => .spend :: builtIn ()

end QueryRenderer

/-- The steps of a hand-off: it is announced, then the configured renderer is called, or the query
is written in the built-in way. -/
def handOver (renderer : Option QueryRenderer) (handoff : Handoff)
    (builtIn outlined : Unit → List Step) : List Step :=
  .announce (.handingOver handoff) ::
    match renderer with
    | none => builtIn ()
    | some r => .call handoff :: r.answer handoff builtIn outlined

/-- Whether a body combines two queries. -/
def Body.isCompound : Body → Bool
  | .select _ _ _ => false
  | .compound _ _ _ => true

mutual

/-- The steps of a layout under the configured renderer. -/
def Layout.steps (renderer : Option QueryRenderer) : Layout → List Step
  | .empty => []
  | .token text => [.write text]
  | .verbatim text => [.write text]
  | .append first second => first.steps renderer ++ second.steps renderer
  | .isolated inner => inner.steps none
  | .commonTable name columns body =>
    handOver renderer (.commonTable name)
      (fun _ => .write name :: .write (CommonTable.columnsText columns) :: .write " AS (" ::
        body.builtIn renderer ++ [.write ")"])
      (fun _ => .write name :: .write "=" :: body.outlined renderer)
  | .query body =>
    handOver renderer (.query body.isCompound) (fun _ => body.builtIn renderer)
      (fun _ => body.outlined renderer)

/-- A query in the built-in way. -/
def Body.builtIn (renderer : Option QueryRenderer) : Body → List Step
  | .select before condition after =>
    .write "SELECT " :: before.steps renderer ++ condition.steps renderer ++ after.steps renderer
  | .compound left joiner right =>
    left.builtIn renderer ++ .write joiner :: right.builtIn renderer

/-- The outline of a query: the conditions of its selects. -/
def Body.outlined (renderer : Option QueryRenderer) : Body → List Step
  | .select _ condition _ => .write "Q[" :: condition.steps renderer ++ [.write "]"]
  | .compound left _ right => left.outlined renderer ++ .write "~" :: right.outlined renderer

end

/-! ## What can be rendered -/

/-- A piece of SQL that is rendered on its own. -/
inductive Fragment where
  | expr (expr : Expr)
  | items (items : Items Expr)
  | list (arguments : List Expr) (brackets : Bool)
  | orderKey (key : OrderKey Expr)
  /-- A query, written in the built-in way and not handed over itself. -/
  | query (query : Query Expr)
  /-- A common table, written in the built-in way and not handed over itself. -/
  | commonTable (table : CommonTable Expr)

namespace Fragment

/-- The steps of a fragment under the configured renderer. -/
def steps (renderer : Option QueryRenderer) : Fragment → List Step
  | expr e => e.layout.steps renderer
  | items is => (is.map Expr.layout).layout.steps renderer
  | list arguments brackets =>
    (Arguments.layout brackets (arguments.map Expr.layout)).steps renderer
  | orderKey key => (key.map Expr.layout).layout.steps renderer
  | query q => (q.map Expr.layout).body.builtIn renderer
  | commonTable table =>
    .write table.name :: .write (CommonTable.columnsText table.columns) :: .write " AS (" ::
      (table.query.map Expr.layout).body.builtIn renderer ++ [.write ")"]

end Fragment

end SqlText
