import SqlText.Clause.Lemmas
import SqlText.Expr

/-!
# Laws of expressions

Nodes obey the laws of clauses. An expression is proved to have a property by showing that a node
has it whose sub-expressions have it (`Expr.induction`). From this it follows that a fold is the
only function that obeys its rule (`Expr.eq_fold`), which is how two folds are compared.
-/

namespace SqlText

variable {ε δ φ : Type}

namespace Node

/-- Mapping twice is mapping once. -/
theorem map_map (g : δ → φ) (f : ε → δ) (n : Node ε) : (n.map f).map g = n.map (g ∘ f) := by
  cases n <;>
    simp [map, Function.comp_def, Member.map_map, Items.map_map, Case.map_map, Call.map_map,
      Analytic.map_map, GroupConcat.map_map, SubQuery.map_map]

/-- The identity maps a node to itself. -/
theorem map_id : Node.map (id : ε → ε) = id := by
  funext n
  cases n <;>
    simp [map, Member.map_id, Items.map_id, Case.map_id, Call.map_id, Analytic.map_id,
      GroupConcat.map_id, SubQuery.map_id]

/-- The sub-expressions of a mapped node are the mapped sub-expressions. -/
theorem children_map (f : ε → δ) (n : Node ε) : (n.map f).children = n.children.map f := by
  cases n <;>
    simp [map, children, Option.toList_map, Member.children_map, Items.children_map,
      Case.children_map, Call.children_map, Analytic.children_map, GroupConcat.children_map,
      SubQuery.children_map]

/-- Functions that agree on the sub-expressions map a node alike. -/
theorem map_congr {f g : ε → δ} {n : Node ε} (h : ∀ e ∈ n.children, f e = g e) :
    n.map f = n.map g := by
  cases n with
  | membership member items negated join =>
    simp only [children, List.forall_mem_append] at h
    simp only [map, Member.map_congr h.1, Items.map_congr h.2]
  | case c => exact congrArg case (Case.map_congr h)
  | call c => exact congrArg call (Call.map_congr h)
  | analytic a => exact congrArg analytic (Analytic.map_congr h)
  | groupConcat g => exact congrArg groupConcat (GroupConcat.map_congr h)
  | row name elements => exact congrArg (row name) (List.map_congr_left h)
  | values elements => exact congrArg values (List.map_congr_left h)
  | subQuery query => exact congrArg subQuery (SubQuery.map_congr h)
  | allOf query => exact congrArg allOf (SubQuery.map_congr h)
  | anyOf word query => exact congrArg (anyOf word) (SubQuery.map_congr h)
  | hierarchical start connect noCycle =>
    simp only [children, List.forall_mem_append, Option.mem_toList] at h
    simp only [map, Option.map_congr h.1, h.2 connect (List.mem_singleton.2 rfl)]
  | _ => simp_all [map, children]

/-- A mapped node has the same shape. -/
theorem shape_map (f : ε → δ) (n : Node ε) : (n.map f).shape = n.shape :=
  map_map _ f n

/-- Every sub-expression is smaller than the node. -/
theorem sizeOf_lt [SizeOf ε] {n : Node ε} {e : ε} (h : e ∈ n.children) : sizeOf e < sizeOf n := by
  cases n with
  | membership member items negated join =>
    simp only [membership.sizeOf_spec]
    rcases List.mem_append.1 h with h | h
    · have := Member.sizeOf_lt h
      omega
    · have := Items.sizeOf_lt h
      omega
  | case c =>
    have := Case.sizeOf_lt h
    simp only [case.sizeOf_spec]
    omega
  | call c =>
    have := Call.sizeOf_lt h
    simp only [call.sizeOf_spec]
    omega
  | analytic a =>
    have := Analytic.sizeOf_lt h
    simp only [analytic.sizeOf_spec]
    omega
  | groupConcat g =>
    have := GroupConcat.sizeOf_lt h
    simp only [groupConcat.sizeOf_spec]
    omega
  | row name elements =>
    have : sizeOf e < sizeOf elements := List.sizeOf_lt_of_mem h
    simp only [row.sizeOf_spec]
    omega
  | values elements =>
    have : sizeOf e < sizeOf elements := List.sizeOf_lt_of_mem h
    simp only [values.sizeOf_spec]
    omega
  | subQuery query =>
    have := SubQuery.sizeOf_lt h
    simp only [subQuery.sizeOf_spec]
    omega
  | allOf query =>
    have := SubQuery.sizeOf_lt h
    simp only [allOf.sizeOf_spec]
    omega
  | anyOf word query =>
    have := SubQuery.sizeOf_lt h
    simp only [anyOf.sizeOf_spec]
    omega
  | hierarchical start connect noCycle =>
    simp only [hierarchical.sizeOf_spec]
    rcases List.mem_append.1 h with h | h
    · have := sizeOf_lt_of_mem_toList h
      omega
    · rw [List.mem_singleton.1 h]
      omega
  | _ => grind [children]

end Node

namespace Expr

/-- What holds of a node whenever it holds of its sub-expressions, holds of every expression. -/
theorem induction {P : Expr → Prop}
    (step : ∀ n : Node Expr, (∀ e ∈ n.children, P e) → P (.node n)) : ∀ e : Expr, P e
  | .node n => step n fun e _ => induction step e
termination_by e => sizeOf e
decreasing_by
  rename_i h
  have := Node.sizeOf_lt h
  simp only [node.sizeOf_spec]
  omega

/-- A function that obeys the rule of a fold is the fold. -/
theorem eq_fold {α : Type} {rule : Node α → α} {f : Expr → α}
    (h : ∀ n : Node Expr, f (.node n) = rule (n.map f)) (e : Expr) : f e = fold rule e := by
  induction e using Expr.induction with
  | step n ih => rw [h, fold_node, Node.map_congr ih]

end Expr

end SqlText
