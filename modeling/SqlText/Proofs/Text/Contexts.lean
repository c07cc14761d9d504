import SqlText.Proofs.Text.Pieces

/-!
# Rendering in context

A context is an expression with a hole in the place of one sub-expression, at any depth. It leads
from the root to the hole through nodes that each leave a single place open (`Layer`).

What is put into the hole shows in the text of the whole as it is, between two texts that depend on
the context alone; or it does not show at all (`Context.sql_fill_cases`). The latter is the case
just if the way to the hole leads through a field of an analytic function that is not written.
-/

namespace SqlText

variable {ε : Type}

/-! ## Contexts -/

/-- A node with one sub-expression left open. -/
structure Layer where
  node : Node (Option Expr)
  one_hole : node.children.countP Option.isNone = 1

/-- Puts an expression into the open place. -/
def Layer.fill (layer : Layer) (s : Expr) : Expr :=
  .node (layer.node.map fun child => child.getD s)

/-- An expression with a hole. -/
inductive Context where
  | hole
  /-- A context in the open place of a node. -/
  | under (layer : Layer) (inner : Context)

/-- Puts an expression into the hole. -/
def Context.fill : Context → Expr → Expr
  | hole, s => s
  | under layer inner, s => layer.fill (inner.fill s)

/-- The hole stands in a field of an analytic function that is not written : an offset without
argument, a default value without argument or without offset, a frame without ordering. -/
inductive Analytic.Hides (a : Analytic (Option ε)) : Prop
  | offset (hole : a.offset = some none) (h : a.argument = none)
  | defaultValue (hole : a.defaultValue = some none) (h : a.argument = none ∨ a.offset = none)
  | frame (hole : ∃ frame, a.frame = some frame ∧ none ∈ frame.children) (h : a.orderBy = [])

/-- The node is an analytic function that does not write its open place. -/
def Layer.Hidden (layer : Layer) : Prop :=
  ∃ a, layer.node = .analytic a ∧ a.Hides

/-- The way to the hole leads through a field that is not written. -/
inductive Context.Hidden : Context → Prop
  | here {layer : Layer} {inner : Context} (h : layer.Hidden) : Hidden (under layer inner)
  | deeper {layer : Layer} {inner : Context} (h : Hidden inner) : Hidden (under layer inner)

/-! ## Where the open place of a node is written -/

namespace Analytic

/-- The sub-expressions that are not written. -/
def unwritten (a : Analytic ε) : List ε :=
  (if a.argument.isNone then a.offset.toList else []) ++
    (if a.argument.isNone || a.offset.isNone then a.defaultValue.toList else []) ++
    (if a.orderBy.isEmpty then a.frame.toList.flatMap Frame.children else [])

/-- A sub-expression is written or not, and never both. -/
theorem countP_children (p : ε → Bool) (a : Analytic ε) :
    a.children.countP p = a.written.countP p + a.unwritten.countP p := by
  obtain ⟨name, kind, argument, offset, defaultValue, allColumns, distinct, ignoreNulls, keep,
    partitionBy, orderBy, frame⟩ := a
  cases argument <;> cases offset <;> cases orderBy <;>
    simp [children, written, writtenArguments, writtenOrder, unwritten, List.countP_append,
      List.countP_cons] <;>
    omega

theorem none_mem_unwritten_iff (a : Analytic (Option ε)) : none ∈ a.unwritten ↔ a.Hides := by
  simp only [unwritten, List.mem_append, List.mem_ite_nil_right, Option.mem_toList,
    List.mem_flatMap, Option.isNone_iff_eq_none, Bool.or_eq_true, List.isEmpty_iff]
  constructor
  · rintro ((⟨h, hole⟩ | ⟨h, hole⟩) | ⟨h, hole⟩)
    · exact .offset hole h
    · exact .defaultValue hole h
    · exact .frame hole h
  · rintro (⟨hole, h⟩ | ⟨hole, h⟩ | ⟨hole, h⟩)
    · exact .inl (.inl ⟨h, hole⟩)
    · exact .inl (.inr ⟨h, hole⟩)
    · exact .inr ⟨h, hole⟩

end Analytic

/-- A list with a single gap. -/
theorem exists_split_of_countP_isNone {children : List (Option ε)}
    (h : children.countP Option.isNone = 1) :
    ∃ first second, children = first ++ none :: second ∧ none ∉ first ∧ none ∉ second := by
  have hpos : 0 < children.countP Option.isNone := by omega
  obtain ⟨child, hmem, hnone⟩ := List.countP_pos_iff.1 hpos
  obtain rfl := Option.isNone_iff_eq_none.1 hnone
  obtain ⟨first, second, rfl⟩ := List.append_of_mem hmem
  rw [List.countP_append, List.countP_cons_of_pos hnone] at h
  have hfirst : first.countP Option.isNone = 0 := by omega
  have hsecond : second.countP Option.isNone = 0 := by omega
  exact ⟨first, second, rfl, fun hmem => List.countP_eq_zero.1 hfirst _ hmem rfl,
    fun hmem => List.countP_eq_zero.1 hsecond _ hmem rfl⟩

/-- The text of a part that is left open stands between two texts that depend on the other parts
alone. -/
theorem Composed.exists_around {written : List (Option ε)} {text : (Option ε → String) → String}
    (h : Composed written text) (hone : written.countP Option.isNone = 1) (f : ε → String) :
    ∃ u v, ∀ s : ε, text (fun child => f (child.getD s)) = u ++ f s ++ v := by
  obtain ⟨first, second, rfl, hfirst, hsecond⟩ := exists_split_of_countP_isNone hone
  obtain ⟨left, right, hleft, hright, htext⟩ := h.split
  -- The texts around the hole are taken with an empty text in it; they do not look at it.
  let around : Option ε → String := fun child => child.elim "" f
  have hsame : ∀ s : ε, ∀ child : Option ε, child ≠ none → f (child.getD s) = around child := by
    intro s child hchild
    cases child with
    | none => exact absurd rfl hchild
    | some e => rfl
  refine ⟨left around, right around, fun s => ?_⟩
  rw [htext, Option.getD_none,
    hleft.congr fun child hmem => hsame s child fun hnone => hfirst (hnone ▸ hmem),
    hright.congr fun child hmem => hsame s child fun hnone => hsecond (hnone ▸ hmem)]

namespace Layer

/-- A hidden place is not written. -/
theorem none_not_mem_written {layer : Layer} (h : layer.Hidden) : none ∉ layer.node.written := by
  obtain ⟨a, hnode, hides⟩ := h
  have hone := layer.one_hole
  rw [hnode, Node.children, a.countP_children] at hone
  have hunwritten : 0 < a.unwritten.countP Option.isNone :=
    List.countP_pos_iff.2 ⟨none, a.none_mem_unwritten_iff.2 hides, rfl⟩
  have hwritten : a.written.countP Option.isNone = 0 := by omega
  rw [hnode]
  exact fun hmem => List.countP_eq_zero.1 hwritten _ hmem rfl

/-- A place that is not hidden is written once. -/
theorem countP_written {layer : Layer} (h : ¬ layer.Hidden) :
    layer.node.written.countP Option.isNone = 1 := by
  have hone := layer.one_hole
  unfold Node.written
  split
  · next a hnode =>
    have hunwritten : a.unwritten.countP Option.isNone = 0 := by
      refine List.countP_eq_zero.2 fun child hmem hnone => h ⟨a, hnode, ?_⟩
      obtain rfl := Option.isNone_iff_eq_none.1 hnone
      exact a.none_mem_unwritten_iff.1 hmem
    rw [hnode, Node.children, a.countP_children, hunwritten] at hone
    exact hone
  · exact hone

theorem sql_fill (layer : Layer) (s : Expr) :
    (layer.fill s).sql = (layer.node.map fun child => (child.getD s).sql).text := by
  rw [fill, Expr.sql_node, Node.map_map]
  rfl

/-- What is put into a hidden place does not show. -/
theorem sql_fill_of_hidden {layer : Layer} (h : layer.Hidden) (s t : Expr) :
    (layer.fill s).sql = (layer.fill t).sql := by
  rw [sql_fill, sql_fill]
  refine layer.node.composed.congr fun child hmem => ?_
  cases child with
  | none => exact absurd hmem (none_not_mem_written h)
  | some e => rfl

/-- What is put into any other place shows there and nowhere else. -/
theorem sql_fill_of_not_hidden {layer : Layer} (h : ¬ layer.Hidden) :
    ∃ u v, ∀ s : Expr, (layer.fill s).sql = u ++ s.sql ++ v := by
  obtain ⟨u, v, htext⟩ := layer.node.composed.exists_around (countP_written h) Expr.sql
  exact ⟨u, v, fun s => (layer.sql_fill s).trans (htext s)⟩

end Layer

/-! ## Whole contexts -/

namespace Context

theorem sql_fill_of_hidden {C : Context} (h : C.Hidden) (s t : Expr) :
    (C.fill s).sql = (C.fill t).sql := by
  induction h with
  | here hlayer => exact Layer.sql_fill_of_hidden hlayer _ _
  | @deeper layer inner _ ih =>
    by_cases hlayer : layer.Hidden
    · exact Layer.sql_fill_of_hidden hlayer _ _
    · obtain ⟨u, v, hfill⟩ := Layer.sql_fill_of_not_hidden hlayer
      rw [fill, fill, hfill, hfill, ih]

theorem sql_fill_of_not_hidden {C : Context} (h : ¬ C.Hidden) :
    ∃ u v, ∀ s : Expr, (C.fill s).sql = u ++ s.sql ++ v := by
  induction C with
  | hole => exact ⟨"", "", fun s => by simp [fill]⟩
  | under layer inner ih =>
    obtain ⟨u, v, hfill⟩ := Layer.sql_fill_of_not_hidden fun hlayer => h (.here hlayer)
    obtain ⟨u', v', hinner⟩ := ih fun hinner => h (.deeper hinner)
    refine ⟨u ++ u', v' ++ v, fun s => ?_⟩
    rw [fill, hfill, hinner]
    simp only [String.append_assoc]

/-- No text around an expression swallows it. -/
theorem not_constant (u v : String) : ¬ ∀ s t : Expr, u ++ s.sql ++ v = u ++ t.sql ++ v := by
  intro h
  have hlength := congrArg String.length (h (.node (.timeKey "")) (.node (.timeKey "x")))
  rw [Expr.sql_node, Expr.sql_node] at hlength
  simp [Node.map, Node.text] at hlength

/-- Whatever the context, either the expression in the hole stands in the text of the whole between
two texts that depend on the context alone, or the text of the whole does not depend on it. The
latter is the case just if the way to the hole leads through a field that is not written. -/
theorem sql_fill_cases (C : Context) :
    ((∃ u v, ∀ s, (C.fill s).sql = u ++ s.sql ++ v) ↔ ¬ C.Hidden) ∧
      ((∀ s t, (C.fill s).sql = (C.fill t).sql) ↔ C.Hidden) := by
  have hexclusive : (∃ u v, ∀ s, (C.fill s).sql = u ++ s.sql ++ v) →
      ¬ ∀ s t, (C.fill s).sql = (C.fill t).sql := by
    rintro ⟨u, v, hfill⟩ hsame
    exact not_constant u v fun s t => by rw [← hfill, ← hfill, hsame s t]
  refine ⟨⟨fun hshown hhidden => ?_, sql_fill_of_not_hidden⟩, ⟨fun hsame => ?_, sql_fill_of_hidden⟩⟩
  · exact hexclusive hshown (sql_fill_of_hidden hhidden)
  · by_cases hhidden : C.Hidden
    · exact hhidden
    · exact absurd hsame (hexclusive (sql_fill_of_not_hidden hhidden))

end Context

end SqlText
