import SqlText.Proofs.Layout.Edits
import SqlText.Proofs.Render.BuiltIn
import SqlText.Proofs.Text.Contexts

/-!
# Grouping of set operators

A query with set operators is a tree of selects, but it is written as a list : the selects from left
to right and the operators between them. How the operators are grouped is not written, though it
matters for operators such as `EXCEPT`.

Here two groupings of the same list are exchanged in a sub-query or in a common table, anywhere in
an expression (`Node.Regroups`). No rendering notices (`Session.render_regrouped`) : the text, the
calls of the query renderer and their offsets, the events and the failure are the same, whatever the
renderer does.

The proof brings all queries of a tree into one grouping, that to the right, by an edit
(`Edit.regrouping`). An edited layout has the same steps (`Layout.steps_regrouped`), and trees that
differ only by their groupings are edited to one tree.
-/

namespace SqlText

variable {ε δ : Type}

/-! ## Queries as lists -/

/-- What is written for a select, given the renderer of the queries nested in it. -/
def Select.textUnder (renderer : Option QueryRenderer) (select : Select Expr) : String :=
  Steps.text ((Fragment.query (.plain select)).steps renderer)

theorem Select.textUnder_of_isBuiltIn {renderer : Option QueryRenderer}
    (hr : IsBuiltIn renderer) : Select.textUnder renderer = Select.sql :=
  funext fun select => Fragment.text_steps hr (.query (.plain select))

namespace Query

/-- The selects of a query, from left to right. -/
def selects : Query ε → List (Select ε)
  | plain select => [select]
  | compound _ _ left right => left.selects ++ right.selects

/-- The set operators of a query, from left to right, each with the word `ALL` or without. -/
def operators : Query ε → List (SetOp × Bool)
  | plain _ => []
  | compound op all left right => left.operators ++ (op, all) :: right.operators

theorem length_selects (q : Query ε) : q.selects.length = q.operators.length + 1 := by
  induction q with
  | plain select => rfl
  | compound op all left right ihl ihr =>
    simp only [selects, operators, List.length_append, List.length_cons]
    omega

/-- What is written for a query is what is written for its selects, with the operators between
them, whatever renders the queries nested in it. -/
theorem text_steps_eq_alternate (renderer : Option QueryRenderer) (q : Query Expr) :
    Steps.text ((Fragment.query q).steps renderer) =
      Text.alternate (q.selects.map (Select.textUnder renderer))
        (q.operators.map fun op => op.1.joiner op.2) := by
  induction q with
  | plain select => exact String.append_empty.symm
  | compound op all left right ihl ihr =>
    have hleft : (left.selects.map (Select.textUnder renderer)).length =
        (left.operators.map fun op => op.1.joiner op.2).length + 1 := by
      rw [List.length_map, List.length_map, length_selects]
    have hright : right.selects.map (Select.textUnder renderer) ≠ [] := by
      rw [← List.length_pos_iff, List.length_map, length_selects]
      omega
    have hsteps : (Fragment.query (.compound op all left right)).steps renderer =
        (Fragment.query left).steps renderer ++ .write (op.joiner all) ::
          (Fragment.query right).steps renderer := by
      simp only [Fragment.steps, map, body, Body.builtIn]
    rw [hsteps, selects, operators, List.map_append, List.map_append, List.map_cons,
      Text.alternate_append _ _ hleft hright, ← ihl, ← ihr, Steps.text_append, Steps.text,
      String.append_assoc]

end Query

/-! ## Grouping to the right -/

namespace Query

/-- Puts a query behind another one that is grouped to the right. -/
def graft (op : SetOp) (all : Bool) : Query ε → Query ε → Query ε
  | plain select, right => compound op all (plain select) right
  | compound op' all' first rest, right => compound op' all' first (rest.graft op all right)

theorem map_graft (f : ε → δ) (op : SetOp) (all : Bool) (left right : Query ε) :
    (left.graft op all right).map f = (left.map f).graft op all (right.map f) := by
  induction left with
  | plain select => rfl
  | compound op' all' first rest _ ih => rw [graft, map, ih, map, graft]

theorem graft_assoc (op op' : SetOp) (all all' : Bool) (a b c : Query ε) :
    (a.graft op all b).graft op' all' c = a.graft op all (b.graft op' all' c) := by
  induction a with
  | plain select => rfl
  | compound op₁ all₁ first rest _ ih => rw [graft, graft, ih, graft]

end Query

namespace Body

/-- Puts a body behind another one that is grouped to the right. -/
def graft : Body → String → Body → Body
  | .select before condition after, joiner, right =>
    .compound (.select before condition after) joiner right
  | .compound first joiner' rest, joiner, right =>
    .compound first joiner' (rest.graft joiner right)

theorem isCompound_graft (left : Body) (joiner : String) (right : Body) :
    (left.graft joiner right).isCompound = true := by
  cases left <;> rfl

theorem builtIn_graft (renderer : Option QueryRenderer) (joiner : String) (right left : Body) :
    (left.graft joiner right).builtIn renderer =
      left.builtIn renderer ++ .write joiner :: right.builtIn renderer := by
  cases left with
  | select before condition after => simp only [graft, Body.builtIn]
  | compound first joiner' rest =>
    rw [graft, Body.builtIn, builtIn_graft renderer joiner right rest, Body.builtIn]
    simp only [List.append_assoc, List.cons_append]

theorem outlined_graft (renderer : Option QueryRenderer) (joiner : String) (right left : Body) :
    (left.graft joiner right).outlined renderer =
      left.outlined renderer ++ .write "~" :: right.outlined renderer := by
  cases left with
  | select before condition after => simp only [graft, Body.outlined]
  | compound first joiner' rest =>
    rw [graft, Body.outlined, outlined_graft renderer joiner right rest, Body.outlined]
    simp only [List.append_assoc, List.cons_append]

end Body

theorem Query.body_graft (op : SetOp) (all : Bool) (left right : Query Layout) :
    (left.graft op all right).body = left.body.graft (op.joiner all) right.body := by
  induction left with
  | plain select => rfl
  | compound op' all' first rest _ ih => rw [graft, body, ih, body, Body.graft]

/-- Groups all set operators to the right, and leaves the strings as they are. -/
def Edit.regrouping : Edit where
  string := id
  string_eq_empty_iff _ := Iff.rfl
  compound op all left right := left.graft op all right
  compoundBody := Body.graft
  map_compound := Query.map_graft
  body_compound := Query.body_graft

mutual

/-- The grouping of set operators does not matter for the steps of a layout. -/
theorem Layout.steps_regrouped (renderer : Option QueryRenderer) :
    ∀ l : Layout, (l.edit .regrouping).steps renderer = l.steps renderer
  | .empty => by rw [Layout.edit]
  | .token t => by rw [Layout.edit]
  | .verbatim t => by
    rw [Layout.edit]
    rfl
  | .append first second => by
    rw [Layout.edit, Layout.steps, Layout.steps, Layout.steps_regrouped renderer first,
      Layout.steps_regrouped renderer second]
  | .isolated inner => by
    rw [Layout.edit, Layout.steps, Layout.steps, Layout.steps_regrouped none inner]
  | .commonTable name columns body => by
    rw [Layout.edit, Layout.steps, Layout.steps, Body.builtIn_regrouped renderer body,
      Body.outlined_regrouped renderer body]
    simp only [Edit.regrouping, List.map_id, id]
  | .query body => by
    rw [Layout.edit, Layout.steps, Layout.steps, Body.builtIn_regrouped renderer body,
      Body.outlined_regrouped renderer body, Body.isCompound_regrouped body]

theorem Body.builtIn_regrouped (renderer : Option QueryRenderer) :
    ∀ body : Body, (body.edit .regrouping).builtIn renderer = body.builtIn renderer
  | .select before condition after => by
    rw [Body.edit, Body.builtIn, Body.builtIn, Layout.steps_regrouped renderer before,
      Layout.steps_regrouped renderer condition, Layout.steps_regrouped renderer after]
  | .compound left joiner right => by
    have hleft := Body.builtIn_regrouped renderer left
    have hright := Body.builtIn_regrouped renderer right
    rw [Body.edit, Body.builtIn, ← hleft, ← hright]
    exact Body.builtIn_graft renderer joiner _ _

theorem Body.outlined_regrouped (renderer : Option QueryRenderer) :
    ∀ body : Body, (body.edit .regrouping).outlined renderer = body.outlined renderer
  | .select before condition after => by
    rw [Body.edit, Body.outlined, Body.outlined, Layout.steps_regrouped renderer condition]
  | .compound left joiner right => by
    have hleft := Body.outlined_regrouped renderer left
    have hright := Body.outlined_regrouped renderer right
    rw [Body.edit, Body.outlined, ← hleft, ← hright]
    exact Body.outlined_graft renderer joiner _ _

theorem Body.isCompound_regrouped : ∀ body : Body,
    (body.edit .regrouping).isCompound = body.isCompound
  | .select before condition after => by
    rw [Body.edit]
    rfl
  | .compound left joiner right => by
    rw [Body.edit]
    exact Body.isCompound_graft _ joiner _

end

/-! ## Exchange of groupings -/

/-- Two queries that differ in the grouping of two neighbouring set operators. -/
inductive Query.Regroups : Query ε → Query ε → Prop
  | rotate (op op' : SetOp) (all all' : Bool) (a b c : Query ε) :
    Regroups (compound op' all' (compound op all a b) c) (compound op all a (compound op' all' b c))
  | left {a a' : Query ε} (op : SetOp) (all : Bool) (b : Query ε) (h : Regroups a a') :
    Regroups (compound op all a b) (compound op all a' b)
  | right {b b' : Query ε} (op : SetOp) (all : Bool) (a : Query ε) (h : Regroups b b') :
    Regroups (compound op all a b) (compound op all a b')

/-- Two sub-queries that differ in the grouping of their query or of one of their common tables. -/
inductive SubQuery.Regroups : SubQuery ε → SubQuery ε → Prop
  | query {q q' : Query ε} (commonTables : List (CommonTable ε)) (brackets : Bool)
    (h : q.Regroups q') : Regroups ⟨q, commonTables, brackets⟩ ⟨q', commonTables, brackets⟩
  | commonTable {q q' : Query ε} (query : Query ε) (first second : List (CommonTable ε))
    (name : String) (columns : List String) (brackets : Bool) (h : q.Regroups q') :
    Regroups ⟨query, first ++ ⟨name, columns, q⟩ :: second, brackets⟩
      ⟨query, first ++ ⟨name, columns, q'⟩ :: second, brackets⟩

/-- Two nodes that differ in the grouping of one sub-query, on all places where there can be one. -/
inductive Node.Regroups : Node ε → Node ε → Prop
  | subQuery {sub sub' : SubQuery ε} (h : sub.Regroups sub') :
    Regroups (subQuery sub) (subQuery sub')
  | allOf {sub sub' : SubQuery ε} (h : sub.Regroups sub') : Regroups (allOf sub) (allOf sub')
  | anyOf {sub sub' : SubQuery ε} (word : AnyWord) (h : sub.Regroups sub') :
    Regroups (anyOf word sub) (anyOf word sub')
  | member {sub sub' : SubQuery ε} (items : Items ε) (negated : Bool) (join : OuterJoin)
    (h : sub.Regroups sub') :
    Regroups (membership (.items (.query sub)) items negated join)
      (membership (.items (.query sub')) items negated join)
  | items {sub sub' : SubQuery ε} (member : Member ε) (negated : Bool) (join : OuterJoin)
    (h : sub.Regroups sub') :
    Regroups (membership member (.query sub) negated join)
      (membership member (.query sub') negated join)

theorem Query.Regroups.edit_eq {q q' : Query ε} (h : q.Regroups q') :
    q.edit .regrouping = q'.edit .regrouping := by
  induction h with
  | rotate op op' all all' a b c =>
    simp only [Query.edit]
    exact graft_assoc op op' all all' _ _ _
  | left op all b h ih => rw [Query.edit, Query.edit, ih]
  | right op all a h ih => rw [Query.edit, Query.edit, ih]

theorem SubQuery.Regroups.edit_eq {sub sub' : SubQuery ε} (h : sub.Regroups sub') :
    sub.edit .regrouping = sub'.edit .regrouping := by
  cases h with
  | query commonTables brackets h => simp only [SubQuery.edit, h.edit_eq]
  | commonTable query first second name columns brackets h =>
    simp only [SubQuery.edit, CommonTable.edit, List.map_append, List.map_cons, h.edit_eq]

theorem Node.Regroups.edit_eq {n n' : Node ε} (h : n.Regroups n') :
    n.edit .regrouping = n'.edit .regrouping := by
  cases h with
  | subQuery h => simp only [Node.edit, h.edit_eq]
  | allOf h => simp only [Node.edit, h.edit_eq]
  | anyOf word h => simp only [Node.edit, h.edit_eq]
  | member items negated join h => simp only [Node.edit, Member.edit, Items.edit, h.edit_eq]
  | items member negated join h => simp only [Node.edit, Items.edit, h.edit_eq]

/-- Expressions that are edited to the same are edited to the same in every context. -/
theorem Context.edited_fill (σ : Edit) {e e' : Expr} (h : e.edited σ = e'.edited σ)
    (C : Context) : (C.fill e).edited σ = (C.fill e').edited σ := by
  induction C with
  | hole => exact h
  | under layer inner ih =>
    have hchild : ∀ child : Option Expr, (child.getD (inner.fill e)).edited σ =
        (child.getD (inner.fill e')).edited σ := by
      intro child
      cases child with
      | none => exact ih
      | some s => rfl
    rw [fill, fill, Layer.fill, Layer.fill, Expr.edited_node, Expr.edited_node, Node.map_map,
      Node.map_map]
    exact congrArg (fun f => Expr.node ((layer.node.map f).edit σ)) (funext hchild)

/-- Exchanging a grouping leaves the steps of the whole expression as they are. -/
theorem Context.steps_regrouped (renderer : Option QueryRenderer) (C : Context)
    {n n' : Node Expr} (h : n.Regroups n') :
    (C.fill (.node n)).layout.steps renderer = (C.fill (.node n')).layout.steps renderer := by
  have hnode : (Expr.node n).edited .regrouping = (Expr.node n').edited .regrouping := by
    rw [Expr.edited_node, Expr.edited_node, Node.edit_map, Node.edit_map, h.edit_eq]
  rw [← Layout.steps_regrouped renderer (C.fill (.node n)).layout, ← Expr.layout_edited,
    C.edited_fill .regrouping hnode, Expr.layout_edited, Layout.steps_regrouped]

namespace Session

/-- A query is written as its selects from left to right with the set operators between them, and
as nothing else. So the grouping of the operators can be exchanged in every sub-query and every
common table of an expression, in whatever session : text, calls, events and failure stay the
same. -/
theorem render_regrouped (s : Session) :
    (∀ q : Query Expr,
      let joiners := q.operators.map fun op => op.1.joiner op.2
      q.selects.length = joiners.length + 1 ∧
      ((s.render (.query q)).2.fault = none → (s.render (.query q)).1.buffer =
        s.buffer ++ Text.alternate (q.selects.map (Select.textUnder s.renderer)) joiners) ∧
      (IsBuiltIn s.renderer → (s.render (.query q)).2.fault = none ∧
        (s.render (.query q)).1.buffer =
          s.buffer ++ Text.alternate (q.selects.map Select.sql) joiners)) ∧
    ∀ (C : Context) (n n' : Node Expr), n.Regroups n' →
      s.render (.expr (C.fill (.node n))) = s.render (.expr (C.fill (.node n'))) ∧
        s.renderToText (C.fill (.node n)) = s.renderToText (C.fill (.node n')) := by
  refine ⟨fun q => ?_, fun C n n' h => ?_⟩
  · intro joiners
    have hlength : q.selects.length = joiners.length + 1 := by
      rw [List.length_map, Query.length_selects]
    have htext : (s.render (.query q)).2.fault = none → (s.render (.query q)).1.buffer =
        s.buffer ++ Text.alternate (q.selects.map (Select.textUnder s.renderer)) joiners := by
      intro hfault
      rw [← Query.text_steps_eq_alternate]
      exact Progress.buffer_run_of_fault_eq_none hfault
    refine ⟨hlength, htext, fun hr => ?_⟩
    have hfault : (s.render (.query q)).2.fault = none := by rw [render_of_isBuiltIn s hr]
    rw [← Select.textUnder_of_isBuiltIn hr]
    exact ⟨hfault, htext hfault⟩
  · have hsteps := C.steps_regrouped s.renderer h
    simp only [render, renderToText, Fragment.steps, hsteps, and_self]

/-- Two differences of three selects, in a common table under a sum. The budget lasts for the first
of the two calls. -/
theorem render_regrouped_except :
    let select := fun name => Query.plain (.ofItems [.ofExpr (.column name)])
    let sub := fun q : Query Expr => Node.subQuery ⟨select "d", [⟨"t", [], q⟩], true⟩
    let first := Query.compound .except true (.compound .except false (select "a") (select "b"))
      (select "c")
    let second := Query.compound .except false (select "a")
      (.compound .except true (select "b") (select "c"))
    let layer : Layer := ⟨.binary none .add (some (.column "e")) false, rfl⟩
    let C := Context.under layer .hole
    let s : Session := ⟨some (.limited 1), "", 1⟩
    (sub first).Regroups (sub second) ∧
      (start.render (.query first)).1.buffer = "SELECT a EXCEPT SELECT b EXCEPT ALL SELECT c" ∧
      s.render (.expr (C.fill (.node (sub first)))) =
        s.render (.expr (C.fill (.node (sub second)))) ∧
      (s.render (.expr (C.fill (.node (sub second))))).2.fault = some (.budgetExhausted 58) := by
  intro select sub first second layer C s
  have h : (sub first).Regroups (sub second) :=
    .subQuery (.commonTable (select "d") [] [] "t" [] true (.rotate _ _ _ _ _ _ _))
  obtain ⟨htext, -⟩ := render_regrouped start
  obtain ⟨-, hsame⟩ := render_regrouped s
  refine ⟨h, ((htext first).2.2 .none).2.trans ?_, (hsame C _ _ h).1, ?_⟩
  · decide +kernel
  · decide +kernel

end Session

end SqlText
