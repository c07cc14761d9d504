import SqlText.Expr.Equality
import SqlText.Proofs.Json.Trees
import SqlText.Proofs.Render.Kinds

/-!
# Equality and exchange

Trees are compared by the shapes of their roots and then part by part. That two values of one shape
with equal parts are the same value is not a law of mapping alone; it holds because two values of
one shape can be laid over each other (`Zips`), as the two sides of one value whose parts are pairs.
Every clause has this property, so the test for equality decides equality (`Expr.equals_iff`).

The main statement is `Comparable.equals_laws` : trees are equal if and only if they are written as
the same JSON value, which is an equivalence relation, and no rendering tells equal trees apart. Two
temporal literals are equal if they stand for the same value, however it was spelled.
-/

namespace SqlText

/-! ## Values of one shape -/

/-- Two values of one shape are the sides of one value of pairs. -/
def Zips {α γ σ : Type} (shape : α → σ) (left right : γ → α) : Prop :=
  ∀ a b, shape a = shape b → ∃ z, left z = a ∧ right z = b

namespace Zips

variable {ε α γ σ : Type} {shape : α → σ} {left right : γ → α}

theorem part : Zips (fun _ : ε => ()) Prod.fst Prod.snd :=
  fun a b _ => ⟨(a, b), rfl, rfl⟩

theorem list (h : Zips shape left right) :
    Zips (List.map shape) (List.map left) (List.map right) := by
  intro xs
  induction xs with
  | nil =>
    intro ys hs
    exact ⟨[], rfl, (List.map_eq_nil_iff.1 hs.symm).symm⟩
  | cons x xs ih =>
    intro ys hs
    obtain ⟨y, ys, rfl, hx, hxs⟩ := List.map_eq_cons_iff.1 hs.symm
    obtain ⟨z, rfl, rfl⟩ := h x y hx.symm
    obtain ⟨zs, rfl, rfl⟩ := ih ys hxs.symm
    exact ⟨z :: zs, rfl, rfl⟩

theorem option (h : Zips shape left right) :
    Zips (Option.map shape) (Option.map left) (Option.map right) := by
  rintro (- | a) (- | b) hs
  · exact ⟨none, rfl, rfl⟩
  · cases hs
  · cases hs
  · obtain ⟨z, rfl, rfl⟩ := h a b (Option.some.inj hs)
    exact ⟨some z, rfl, rfl⟩

end Zips

variable {ε : Type}

theorem OrderKey.zips :
    Zips (OrderKey.map fun _ : ε => ()) (OrderKey.map Prod.fst) (OrderKey.map Prod.snd) := by
  rintro ⟨a, direction, nulls⟩ ⟨b, -, -⟩ ⟨⟩
  exact ⟨⟨(a, b), direction, nulls⟩, rfl, rfl⟩

theorem Keep.zips : Zips (Keep.map fun _ : ε => ()) (Keep.map Prod.fst) (Keep.map Prod.snd) := by
  rintro ⟨name, first, keys⟩ ⟨_, _, keys'⟩ h
  simp only [map, mk.injEq] at h
  obtain ⟨rfl, rfl, hkeys⟩ := h
  obtain ⟨zs, rfl, rfl⟩ := OrderKey.zips.list _ _ hkeys
  exact ⟨⟨name, first, zs⟩, rfl, rfl⟩

theorem FrameBound.zips :
    Zips (FrameBound.map fun _ : ε => ()) (FrameBound.map Prod.fst) (FrameBound.map Prod.snd) := by
  intro a b h
  cases a <;> cases b <;> try contradiction
  case preceding.preceding a b => exact ⟨preceding (a, b), rfl, rfl⟩
  case following.following a b => exact ⟨following (a, b), rfl, rfl⟩
  case unboundedPreceding.unboundedPreceding => exact ⟨unboundedPreceding, rfl, rfl⟩
  case unboundedFollowing.unboundedFollowing => exact ⟨unboundedFollowing, rfl, rfl⟩
  case currentRow.currentRow => exact ⟨currentRow, rfl, rfl⟩

theorem FrameExtent.zips :
    Zips (FrameExtent.map fun _ : ε => ()) (FrameExtent.map Prod.fst)
      (FrameExtent.map Prod.snd) := by
  rintro (bound | ⟨start, stop⟩) (bound' | ⟨start', stop'⟩) h
  · obtain ⟨z, rfl, rfl⟩ := FrameBound.zips _ _ (single.inj h)
    exact ⟨single z, rfl, rfl⟩
  · cases h
  · cases h
  · obtain ⟨hstart, hstop⟩ := between.inj h
    obtain ⟨z, rfl, rfl⟩ := FrameBound.zips _ _ hstart
    obtain ⟨z', rfl, rfl⟩ := FrameBound.zips _ _ hstop
    exact ⟨between z z', rfl, rfl⟩

theorem Frame.zips :
    Zips (Frame.map fun _ : ε => ()) (Frame.map Prod.fst) (Frame.map Prod.snd) := by
  rintro ⟨unit, extent⟩ ⟨_, extent'⟩ h
  simp only [map, mk.injEq] at h
  obtain ⟨rfl, hextent⟩ := h
  obtain ⟨z, rfl, rfl⟩ := FrameExtent.zips _ _ hextent
  exact ⟨⟨unit, z⟩, rfl, rfl⟩

theorem When.zips : Zips (When.map fun _ : ε => ()) (When.map Prod.fst) (When.map Prod.snd) :=
  fun a b _ => ⟨⟨(a.condition, b.condition), (a.result, b.result)⟩, rfl, rfl⟩

theorem Case.zips : Zips (Case.map fun _ : ε => ()) (Case.map Prod.fst) (Case.map Prod.snd) := by
  rintro ⟨operand, branches, otherwise⟩ ⟨operand', branches', otherwise'⟩ h
  simp only [map, mk.injEq] at h
  obtain ⟨hoperand, hbranches, hotherwise⟩ := h
  obtain ⟨x, rfl, rfl⟩ := Zips.part.option _ _ hoperand
  obtain ⟨y, rfl, rfl⟩ := When.zips.list _ _ hbranches
  obtain ⟨z, rfl, rfl⟩ := Zips.part.option _ _ hotherwise
  exact ⟨⟨x, y, z⟩, rfl, rfl⟩

theorem Call.zips : Zips (Call.map fun _ : ε => ()) (Call.map Prod.fst) (Call.map Prod.snd) := by
  rintro ⟨name, arguments, quantifier, allColumns, escaped, field, keep⟩ ⟨_, _, _, _, _, _, _⟩ h
  simp only [map, mk.injEq] at h
  obtain ⟨rfl, harguments, rfl, rfl, rfl, rfl, hkeep⟩ := h
  obtain ⟨x, rfl, rfl⟩ := Zips.part.list.option _ _ harguments
  obtain ⟨y, rfl, rfl⟩ := Keep.zips.option _ _ hkeep
  exact ⟨⟨name, x, quantifier, allColumns, escaped, field, y⟩, rfl, rfl⟩

theorem Analytic.zips :
    Zips (Analytic.map fun _ : ε => ()) (Analytic.map Prod.fst) (Analytic.map Prod.snd) := by
  rintro ⟨name, kind, argument, offset, defaultValue, allColumns, distinct, ignoreNulls, keep,
    partitionBy, orderBy, frame⟩ ⟨_, _, _, _, _, _, _, _, _, _, _, _⟩ h
  simp only [map, mk.injEq] at h
  obtain ⟨rfl, rfl, hargument, hoffset, hdefault, rfl, rfl, rfl, hkeep, hpartition, horder,
    hframe⟩ := h
  obtain ⟨argument, rfl, rfl⟩ := Zips.part.option _ _ hargument
  obtain ⟨offset, rfl, rfl⟩ := Zips.part.option _ _ hoffset
  obtain ⟨defaultValue, rfl, rfl⟩ := Zips.part.option _ _ hdefault
  obtain ⟨keep, rfl, rfl⟩ := Keep.zips.option _ _ hkeep
  obtain ⟨partitionBy, rfl, rfl⟩ := Zips.part.list _ _ hpartition
  obtain ⟨orderBy, rfl, rfl⟩ := OrderKey.zips.list _ _ horder
  obtain ⟨frame, rfl, rfl⟩ := Frame.zips.option _ _ hframe
  exact ⟨⟨name, kind, argument, offset, defaultValue, allColumns, distinct, ignoreNulls, keep,
    partitionBy, orderBy, frame⟩, rfl, rfl⟩

theorem GroupConcat.zips :
    Zips (GroupConcat.map fun _ : ε => ()) (GroupConcat.map Prod.fst)
      (GroupConcat.map Prod.snd) := by
  rintro ⟨distinct, arguments, orderBy, separator⟩ ⟨_, _, _, _⟩ h
  simp only [map, mk.injEq] at h
  obtain ⟨rfl, harguments, horder, rfl⟩ := h
  obtain ⟨arguments, rfl, rfl⟩ := Zips.part.list _ _ harguments
  obtain ⟨orderBy, rfl, rfl⟩ := OrderKey.zips.list _ _ horder
  exact ⟨⟨distinct, arguments, orderBy, separator⟩, rfl, rfl⟩

theorem SelectItem.zips :
    Zips (SelectItem.map fun _ : ε => ()) (SelectItem.map Prod.fst) (SelectItem.map Prod.snd) := by
  intro a b h
  cases a <;> cases b <;> try contradiction
  case allColumns.allColumns => exact ⟨allColumns, rfl, rfl⟩
  case tableColumns.tableColumns table _ =>
    cases h
    exact ⟨tableColumns table, rfl, rfl⟩
  case expr.expr a label b _ =>
    obtain ⟨-, rfl⟩ := expr.inj h
    exact ⟨expr (a, b) label, rfl, rfl⟩

theorem Select.zips :
    Zips (Select.map fun _ : ε => ()) (Select.map Prod.fst) (Select.map Prod.snd) := by
  rintro ⟨distinct, items, source, condition, groupBy, having, orderBy, limit⟩
    ⟨_, _, _, _, _, _, _, _⟩ h
  simp only [map, mk.injEq] at h
  obtain ⟨rfl, hitems, rfl, hcondition, hgroup, hhaving, horder, hlimit⟩ := h
  obtain ⟨items, rfl, rfl⟩ := SelectItem.zips.list _ _ hitems
  obtain ⟨condition, rfl, rfl⟩ := Zips.part.option _ _ hcondition
  obtain ⟨groupBy, rfl, rfl⟩ := Zips.part.list _ _ hgroup
  obtain ⟨having, rfl, rfl⟩ := Zips.part.option _ _ hhaving
  obtain ⟨orderBy, rfl, rfl⟩ := OrderKey.zips.list _ _ horder
  obtain ⟨limit, rfl, rfl⟩ := Zips.part.option _ _ hlimit
  exact ⟨⟨distinct, items, source, condition, groupBy, having, orderBy, limit⟩, rfl, rfl⟩

theorem Query.zips :
    Zips (Query.map fun _ : ε => ()) (Query.map Prod.fst) (Query.map Prod.snd) := by
  intro a
  induction a with
  | plain select =>
    rintro (select' | _) h
    · obtain ⟨z, rfl, rfl⟩ := Select.zips _ _ (plain.inj h)
      exact ⟨plain z, rfl, rfl⟩
    · cases h
  | compound op all left right ihl ihr =>
    rintro (_ | ⟨op', all', left', right'⟩) h
    · cases h
    · obtain ⟨rfl, rfl, hleft, hright⟩ := compound.inj h
      obtain ⟨left, rfl, rfl⟩ := ihl left' hleft
      obtain ⟨right, rfl, rfl⟩ := ihr right' hright
      exact ⟨compound op all left right, rfl, rfl⟩

theorem CommonTable.zips :
    Zips (CommonTable.map fun _ : ε => ()) (CommonTable.map Prod.fst)
      (CommonTable.map Prod.snd) := by
  rintro ⟨name, columns, query⟩ ⟨_, _, _⟩ h
  simp only [map, mk.injEq] at h
  obtain ⟨rfl, rfl, hquery⟩ := h
  obtain ⟨query, rfl, rfl⟩ := Query.zips _ _ hquery
  exact ⟨⟨name, columns, query⟩, rfl, rfl⟩

theorem SubQuery.zips :
    Zips (SubQuery.map fun _ : ε => ()) (SubQuery.map Prod.fst) (SubQuery.map Prod.snd) := by
  rintro ⟨query, tables, brackets⟩ ⟨_, _, _⟩ h
  simp only [map, mk.injEq] at h
  obtain ⟨hquery, htables, rfl⟩ := h
  obtain ⟨query, rfl, rfl⟩ := Query.zips _ _ hquery
  obtain ⟨tables, rfl, rfl⟩ := CommonTable.zips.list _ _ htables
  exact ⟨⟨query, tables, brackets⟩, rfl, rfl⟩

theorem Items.zips :
    Zips (Items.map fun _ : ε => ()) (Items.map Prod.fst) (Items.map Prod.snd) := by
  intro a b h
  cases a <;> cases b <;> try contradiction
  case list.list =>
    obtain ⟨z, rfl, rfl⟩ := Zips.part.list _ _ (list.inj h)
    exact ⟨list z, rfl, rfl⟩
  case rows.rows =>
    obtain ⟨z, rfl, rfl⟩ := Zips.part.list.list _ _ (rows.inj h)
    exact ⟨rows z, rfl, rfl⟩
  case query.query =>
    obtain ⟨z, rfl, rfl⟩ := SubQuery.zips _ _ (query.inj h)
    exact ⟨query z, rfl, rfl⟩

theorem Member.zips :
    Zips (Member.map fun _ : ε => ()) (Member.map Prod.fst) (Member.map Prod.snd) := by
  intro a b h
  cases a <;> cases b <;> try contradiction
  case expr.expr a b => exact ⟨expr (a, b), rfl, rfl⟩
  case items.items =>
    obtain ⟨z, rfl, rfl⟩ := Items.zips _ _ (items.inj h)
    exact ⟨items z, rfl, rfl⟩

namespace Node

theorem zips : Zips (shape (ε := ε)) (map Prod.fst) (map Prod.snd) := by
  intro a b h
  cases a <;> cases b <;> try contradiction
  case binary.binary a op b negated a' _ b' _ =>
    obtain ⟨-, rfl, -, rfl⟩ := binary.inj h
    exact ⟨binary (a, a') op (b, b') negated, rfl, rfl⟩
  case comparison.comparison a op b negated join a' _ b' _ _ =>
    obtain ⟨-, rfl, -, rfl, rfl⟩ := comparison.inj h
    exact ⟨comparison (a, a') op (b, b') negated join, rfl, rfl⟩
  case like.like a b negated ignoreCase escape a' b' _ _ _ =>
    obtain ⟨-, -, rfl, rfl, rfl⟩ := like.inj h
    exact ⟨like (a, a') (b, b') negated ignoreCase escape, rfl, rfl⟩
  case between.between a b c negated a' b' c' _ =>
    obtain ⟨-, -, -, rfl⟩ := between.inj h
    exact ⟨between (a, a') (b, b') (c, c') negated, rfl, rfl⟩
  case membership.membership negated join _ _ _ _ =>
    obtain ⟨hmember, hitems, rfl, rfl⟩ := membership.inj h
    obtain ⟨member, rfl, rfl⟩ := Member.zips _ _ hmember
    obtain ⟨items, rfl, rfl⟩ := Items.zips _ _ hitems
    exact ⟨membership member items negated join, rfl, rfl⟩
  case isNull.isNull a negated oneWord a' _ _ =>
    obtain ⟨-, rfl, rfl⟩ := isNull.inj h
    exact ⟨isNull (a, a') negated oneWord, rfl, rfl⟩
  case existence.existence a negated a' _ =>
    obtain ⟨-, rfl⟩ := existence.inj h
    exact ⟨existence (a, a') negated, rfl, rfl⟩
  case not.not a a' => exact ⟨not (a, a'), rfl, rfl⟩
  case signed.signed sign a _ a' =>
    obtain ⟨rfl, -⟩ := signed.inj h
    exact ⟨signed sign (a, a'), rfl, rfl⟩
  case brackets.brackets a negated a' _ =>
    obtain ⟨-, rfl⟩ := brackets.inj h
    exact ⟨brackets (a, a') negated, rfl, rfl⟩
  case case.case =>
    obtain ⟨z, rfl, rfl⟩ := Case.zips _ _ (case.inj h)
    exact ⟨case z, rfl, rfl⟩
  case call.call =>
    obtain ⟨z, rfl, rfl⟩ := Call.zips _ _ (call.inj h)
    exact ⟨call z, rfl, rfl⟩
  case analytic.analytic =>
    obtain ⟨z, rfl, rfl⟩ := Analytic.zips _ _ (analytic.inj h)
    exact ⟨analytic z, rfl, rfl⟩
  case groupConcat.groupConcat =>
    obtain ⟨z, rfl, rfl⟩ := GroupConcat.zips _ _ (groupConcat.inj h)
    exact ⟨groupConcat z, rfl, rfl⟩
  case cast.cast a type keyword a' _ _ =>
    obtain ⟨-, rfl, rfl⟩ := cast.inj h
    exact ⟨cast (a, a') type keyword, rfl, rfl⟩
  case extract.extract field a _ a' =>
    obtain ⟨rfl, -⟩ := extract.inj h
    exact ⟨extract field (a, a'), rfl, rfl⟩
  case row.row name _ _ _ =>
    obtain ⟨rfl, helements⟩ := row.inj h
    obtain ⟨elements, rfl, rfl⟩ := Zips.part.list _ _ helements
    exact ⟨row name elements, rfl, rfl⟩
  case values.values =>
    obtain ⟨elements, rfl, rfl⟩ := Zips.part.list _ _ (values.inj h)
    exact ⟨values elements, rfl, rfl⟩
  case subQuery.subQuery =>
    obtain ⟨z, rfl, rfl⟩ := SubQuery.zips _ _ (subQuery.inj h)
    exact ⟨subQuery z, rfl, rfl⟩
  case allOf.allOf =>
    obtain ⟨z, rfl, rfl⟩ := SubQuery.zips _ _ (allOf.inj h)
    exact ⟨allOf z, rfl, rfl⟩
  case anyOf.anyOf word _ _ _ =>
    obtain ⟨rfl, hquery⟩ := anyOf.inj h
    obtain ⟨z, rfl, rfl⟩ := SubQuery.zips _ _ hquery
    exact ⟨anyOf word z, rfl, rfl⟩
  case hierarchical.hierarchical a noCycle _ a' _ =>
    obtain ⟨hstart, -, rfl⟩ := hierarchical.inj h
    obtain ⟨start, rfl, rfl⟩ := Zips.part.option _ _ hstart
    exact ⟨hierarchical start (a, a') noCycle, rfl, rfl⟩
  -- Nodes without sub-expressions are their own shapes.
  case interval.interval amount unit _ _ =>
    cases h
    exact ⟨interval amount unit, rfl, rfl⟩
  case column.column c _ =>
    cases h
    exact ⟨column c, rfl, rfl⟩
  case document.document c path _ _ =>
    cases h
    exact ⟨document c path, rfl, rfl⟩
  case literal.literal l _ =>
    cases h
    exact ⟨literal l, rfl, rfl⟩
  case parameter.parameter p _ =>
    cases h
    exact ⟨parameter p, rfl, rfl⟩
  case sessionVariable.sessionVariable name system _ _ =>
    cases h
    exact ⟨sessionVariable name system, rfl, rfl⟩
  case timeKey.timeKey word _ =>
    cases h
    exact ⟨timeKey word, rfl, rfl⟩
  case hint.hint x _ =>
    cases h
    exact ⟨hint x, rfl, rfl⟩

end Node

/-! ## The test for equality -/

/-- A family of values over any type of sub-expressions, with the laws by which two of its values
can be laid over each other. -/
structure Clause (F : Type → Type) where
  map : {α β : Type} → (α → β) → F α → F β
  children : {α : Type} → F α → List α
  children_map : ∀ {α β : Type} (f : α → β) (x : F α), children (map f x) = (children x).map f
  map_congr : ∀ {α β : Type} {f g : α → β} {x : F α}, (∀ e ∈ children x, f e = g e) →
    map f x = map g x
  zips : ∀ {α : Type}, Zips (map fun _ : α => ()) (map Prod.fst) (map Prod.snd)

namespace Clause

/-- One level of an expression. -/
def node : Clause Node :=
  ⟨Node.map, Node.children, Node.children_map, Node.map_congr, Node.zips⟩

/-- Calls over any arguments. -/
def call : Clause Call :=
  ⟨Call.map, Call.children, Call.children_map, Call.map_congr, Call.zips⟩

/-- Sub-queries over any expressions. -/
def subQuery : Clause SubQuery :=
  ⟨SubQuery.map, SubQuery.children, SubQuery.children_map, SubQuery.map_congr, SubQuery.zips⟩

variable {F : Type → Type} (clause : Clause F)

/-- Values of one shape have equally many sub-expressions. -/
theorem length_children {a b : F ε}
    (h : clause.map (fun _ => ()) a = clause.map (fun _ => ()) b) :
    (clause.children a).length = (clause.children b).length := by
  have hlength := congrArg (fun x => (clause.children x).length) h
  simpa only [clause.children_map, List.length_map] using hlength

/-- A value is determined by its shape and its sub-expressions. -/
theorem eq_of_shape {a b : F ε} (h : clause.map (fun _ => ()) a = clause.map (fun _ => ()) b)
    (hc : clause.children a = clause.children b) : a = b := by
  obtain ⟨z, rfl, rfl⟩ := clause.zips a b h
  rw [clause.children_map, clause.children_map] at hc
  exact clause.map_congr (List.map_inj_left.1 hc)

end Clause

/-- Lists of one length are equal if their members are equal one by one. -/
theorem Expr.allEqual_iff {xs ys : List Expr} (h : ∀ x ∈ xs, ∀ y, equals x y ↔ x = y)
    (hlength : xs.length = ys.length) : allEqual xs ys ↔ xs = ys := by
  induction xs generalizing ys with
  | nil => simp [allEqual, List.eq_nil_of_length_eq_zero hlength.symm]
  | cons x xs ih =>
    obtain ⟨y, ys, rfl⟩ := List.exists_cons_of_length_eq_add_one hlength.symm
    obtain ⟨hx, hxs⟩ := List.forall_mem_cons.1 h
    have ih := ih hxs (Nat.succ.inj hlength)
    rw [allEqual] at ih
    simp [allEqual, hx y, ih]

/-- To compare the shapes and then the sub-expressions one by one is to compare the values. -/
theorem Clause.eq_iff {F : Type → Type} (clause : Clause F) {a b : F Expr}
    (h : ∀ x ∈ clause.children a, ∀ y, Expr.equals x y ↔ x = y) :
    clause.map (fun _ => ()) a = clause.map (fun _ => ()) b ∧
      Expr.allEqual (clause.children a) (clause.children b) ↔ a = b := by
  constructor
  · rintro ⟨hshape, hparts⟩
    have hlength := clause.length_children hshape
    exact clause.eq_of_shape hshape ((Expr.allEqual_iff h hlength).1 hparts)
  · rintro rfl
    exact ⟨rfl, (Expr.allEqual_iff h rfl).2 rfl⟩

theorem Expr.equals_iff (a b : Expr) : equals a b ↔ a = b := by
  induction a using Expr.induction generalizing b with
  | step n ih =>
    obtain ⟨m⟩ := b
    rw [equals_node, Bool.and_eq_true, decide_eq_true_eq, node.injEq]
    exact Clause.node.eq_iff ih

theorem Call.equals_iff (a b : Call Expr) : equals a b ↔ a = b := by
  rw [equals, Bool.and_eq_true, decide_eq_true_eq]
  exact Clause.call.eq_iff fun x _ => x.equals_iff

theorem SubQuery.equals_iff (a b : SubQuery Expr) : equals a b ↔ a = b := by
  rw [equals, Bool.and_eq_true, decide_eq_true_eq]
  exact Clause.subQuery.eq_iff fun x _ => x.equals_iff

/-! ## Trees that are compared -/

/-- The types of trees with a test for equality. -/
inductive Comparable where
  | expr | subQuery | call | column | table | literal | parameter | dataType

namespace Comparable

/-- The kind of text that the trees have. -/
def kind : Comparable → Kind
  | expr => .expr
  | subQuery => .subQuery
  | call => .call
  | column => .column
  | table => .table
  | literal => .literal
  | parameter => .parameter
  | dataType => .dataType

/-- The trees of a type. -/
abbrev Tree (type : Comparable) : Type :=
  type.kind.Over Expr

/-- Whether two trees are equal. -/
def equals : (type : Comparable) → type.Tree → type.Tree → Bool
  | expr => fun a b : Expr => a == b
  | subQuery => fun a b : SubQuery Expr => a == b
  | call => fun a b : Call Expr => a == b
  | column => fun a b : Column => a == b
  | table => fun a b : Table => a == b
  | literal => fun a b : Literal => a == b
  | parameter => fun a b : Parameter => a == b
  | dataType => fun a b : DataType => a == b

/-- How the trees are exchanged. -/
def codec : (type : Comparable) → Codec type.Tree
  | expr => TreeType.expr.codec
  | subQuery => TreeType.subQuery.codec
  | call => TreeType.call.codec
  | column => TreeType.column.codec
  | table => TreeType.table.codec
  | literal => TreeType.literal.codec
  | parameter => TreeType.parameter.codec
  | dataType => TreeType.dataType.codec

theorem equals_iff_eq : ∀ (type : Comparable) (a b : type.Tree), type.equals a b ↔ a = b
  | expr, a, b => Expr.equals_iff a b
  | subQuery, a, b => SubQuery.equals_iff a b
  | call, a, b => Call.equals_iff a b
  | column, _, _ => beq_iff_eq
  | table, _, _ => beq_iff_eq
  | literal, _, _ => beq_iff_eq
  | parameter, _, _ => beq_iff_eq
  | dataType, _, _ => beq_iff_eq

end Comparable

/-- A tree can be told from what is written for it. -/
theorem Codec.encode_inj {α : Type} (codec : Codec α) {a b : α} :
    codec.encode a = codec.encode b ↔ a = b := by
  refine ⟨fun h => ?_, congrArg codec.encode⟩
  have hb := codec.decode_encode b
  rw [← h, codec.decode_encode] at hb
  exact Option.some.inj hb

/-- A value of the calendar or of the clock. -/
inductive Temporal where
  | date (value : Date)
  | time (value : Time)
  | timestamp (value : Timestamp)
  deriving DecidableEq

namespace Temporal

/-- The literal that stands for the value. -/
def literal : Temporal → Literal
  | date d => .date d
  | time t => .time t
  | timestamp t => .timestamp t

/-- The spellings of the value. -/
def Spelling : Temporal → List Char → Prop
  | date d => d.Spelling
  | time t => t.Spelling
  | timestamp t => t.Spelling

/-- The JSON value that gives a literal of the value's type by a text. -/
def given : Temporal → String → Json
  | date _, text => .tagged "Date" (.str text)
  | time _, text => .tagged "Time" (.str text)
  | timestamp _, text => .tagged "Timestamp" (.str text)

/-- By whichever text a value is spelled, the literal that is read stands for the value. -/
theorem decode_given {t : Temporal} {text : String} (h : t.Spelling text.toList) :
    Literal.decode (t.given text) = some t.literal := by
  refine (TreeType.literal.codec.decode_eq_some_iff _ _).2 ?_
  cases t with
  | date d => exact Forms.tagged_holding (.str h)
  | time t => exact Forms.tagged_holding (.str h)
  | timestamp t => exact Forms.tagged_holding (.str h)

theorem literal_inj {t u : Temporal} : t.literal = u.literal ↔ t = u := by
  cases t <;> cases u <;> simp [literal]

end Temporal

namespace Comparable

/-- Equality of trees. Two trees are equal if and only if they are written as the same JSON value;
this is an equivalence relation, and equal trees have the same SQL text and run alike under every
renderer. Temporal literals are equal if their values are, by whichever texts they were given. -/
theorem equals_laws :
    (∀ (type : Comparable) (a b : type.Tree),
      type.equals a b ↔ type.codec.encode a = type.codec.encode b) ∧
    (∀ type : Comparable, Equivalence fun a b : type.Tree => (type.equals a b : Prop)) ∧
    (∀ (type : Comparable) (a b : type.Tree), type.equals a b →
      type.kind.sql a = type.kind.sql b ∧
        ∀ renderer (p : Progress),
          p.run (type.kind.steps renderer a) = p.run (type.kind.steps renderer b)) ∧
    ∀ (t u : Temporal) (text text' : String), t.Spelling text.toList → u.Spelling text'.toList →
      ∃ a b, Literal.decode (t.given text) = some a ∧ Literal.decode (u.given text') = some b ∧
        (a == b ↔ t = u) := by
  refine ⟨fun type a b => ?_, fun type => ?_, fun type a b h => ?_, fun t u text text' ht hu => ?_⟩
  · rw [equals_iff_eq, Codec.encode_inj]
  · refine ⟨fun a => ?_, fun {a b} h => ?_, fun {a b c} hab hbc => ?_⟩
    · exact (type.equals_iff_eq a a).2 rfl
    · exact (type.equals_iff_eq b a).2 ((type.equals_iff_eq a b).1 h).symm
    · rw [type.equals_iff_eq] at hab hbc ⊢
      exact hab.trans hbc
  · obtain rfl := (type.equals_iff_eq a b).1 h
    exact ⟨rfl, fun _ _ => rfl⟩
  · refine ⟨t.literal, u.literal, Temporal.decode_given ht, Temporal.decode_given hu, ?_⟩
    exact beq_iff_eq.trans Temporal.literal_inj

/-- Half past twelve in two spellings, and a leap second beside the minute that follows it. -/
theorem equals_laws_times :
    let half : Temporal := .time ⟨12, 30, 0, 0, by decide, by decide, by decide, by decide⟩
    let leap : Temporal := .time ⟨12, 30, 60, 0, by decide, by decide, by decide, by decide⟩
    let next : Temporal := .time ⟨12, 31, 0, 0, by decide, by decide, by decide, by decide⟩
    (half.Spelling "12:30".toList ∧ half.Spelling "12:30:00.000".toList ∧
      ∃ a b, Literal.decode (half.given "12:30") = some a ∧
        Literal.decode (half.given "12:30:00.000") = some b ∧ a == b) ∧
    (leap.Spelling "12:30:60".toList ∧ next.Spelling "12:31:00".toList ∧
      ∃ a b, Literal.decode (leap.given "12:30:60") = some a ∧
        Literal.decode (next.given "12:31:00") = some b ∧ ¬ a == b) := by
  intro half leap next
  obtain ⟨-, -, -, hvalues⟩ := equals_laws
  have hshort : half.Spelling "12:30".toList := Time.ofChars?_eq_some_iff.1 (by decide)
  have hlong : half.Spelling "12:30:00.000".toList := Time.ofChars?_eq_some_iff.1 (by decide)
  have hleap : leap.Spelling "12:30:60".toList := Time.ofChars?_eq_some_iff.1 (by decide)
  have hnext : next.Spelling "12:31:00".toList := Time.ofChars?_eq_some_iff.1 (by decide)
  obtain ⟨a, b, ha, hb, hab⟩ := hvalues half half _ _ hshort hlong
  obtain ⟨c, d, hc, hd, hcd⟩ := hvalues leap next _ _ hleap hnext
  refine ⟨⟨hshort, hlong, a, b, ha, hb, hab.2 rfl⟩, hleap, hnext, c, d, hc, hd, ?_⟩
  rw [hcd]
  decide

end Comparable

end SqlText
