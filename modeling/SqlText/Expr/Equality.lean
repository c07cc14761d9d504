import SqlText.Expr.Lemmas

/-!
# Equality of trees

Two expressions are equal if their roots have the same shape and their immediate parts are equal one
by one. All fields count, those included that no text shows. Clauses over expressions are compared
in the same way.
-/

namespace SqlText

namespace Expr

/-- Whether a node equals the root of a tree, given tests for its sub-expressions. -/
def matchesNode (n : Node (Expr → Bool)) : Expr → Bool
  | .node m =>
    n.shape = m.shape && (List.zipWith (fun test e => test e) n.children m.children).all id

/-- Whether two expressions are equal. -/
def equals : Expr → Expr → Bool :=
  fold matchesNode

instance : BEq Expr := ⟨equals⟩

/-- Whether the expressions of two lists of one length are equal one by one. -/
def allEqual (xs ys : List Expr) : Bool :=
  (List.zipWith equals xs ys).all id

/-- Two trees are compared by the shapes of their roots and then part by part. -/
theorem equals_node (n m : Node Expr) :
    equals (.node n) (.node m) = (n.shape = m.shape && allEqual n.children m.children) := by
  rw [equals, fold_node]
  simp only [matchesNode, allEqual, Node.shape_map, Node.children_map, List.zipWith_map_left]
  rfl

end Expr

/-- Whether two function calls are equal. -/
def Call.equals (a b : Call Expr) : Bool :=
  (a.map fun _ => ()) = (b.map fun _ => ()) && Expr.allEqual a.children b.children

instance : BEq (Call Expr) := ⟨Call.equals⟩

/-- Whether two queries are equal as expressions. -/
def SubQuery.equals (a b : SubQuery Expr) : Bool :=
  (a.map fun _ => ()) = (b.map fun _ => ()) && Expr.allEqual a.children b.children

instance : BEq (SubQuery Expr) := ⟨SubQuery.equals⟩

end SqlText
