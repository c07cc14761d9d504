import SqlText.Expr.Node

/-!
# Expressions

The tree of expressions, `Node` all the way down, and its fold. Texts, layouts, JSON values and the
comparison of trees are all folds over rules for a single level.

The fold runs through every kind of part that holds sub-expressions. `Expr.fold_node` states it in
one line: fold the immediate sub-expressions, then apply the rule.
-/

namespace SqlText

/-- An expression. -/
inductive Expr where
  | node (node : Node Expr)

namespace Expr

/-! ## The fold -/

section Fold

variable {α : Type} (rule : Node α → α)

mutual

/-- Applies a rule at every level, from the leaves up. -/
def fold : Expr → α
  | .node n => rule (foldNode n)

/-- Folds the sub-expressions of a node, each where it stands. -/
def foldNode : Node Expr → Node α
  | .binary left op right negated => .binary (fold left) op (fold right) negated
  | .comparison left op right negated join =>
    .comparison (fold left) op (fold right) negated join
  | .like left right negated ignoreCase escape =>
    .like (fold left) (fold right) negated ignoreCase escape
  | .between expr start stop negated => .between (fold expr) (fold start) (fold stop) negated
  | .membership member items negated join =>
    .membership (foldMember member) (foldItems items) negated join
  | .isNull expr negated oneWord => .isNull (fold expr) negated oneWord
  | .existence expr negated => .existence (fold expr) negated
  | .not expr => .not (fold expr)
  | .signed sign expr => .signed sign (fold expr)
  | .brackets expr negated => .brackets (fold expr) negated
  | .case c => .case (foldCase c)
  | .call c => .call (foldCall c)
  | .analytic a => .analytic (foldAnalytic a)
  | .groupConcat g => .groupConcat (foldGroupConcat g)
  | .cast expr type keyword => .cast (fold expr) type keyword
  | .extract field expr => .extract field (fold expr)
  | .interval amount unit => .interval amount unit
  | .row name elements => .row name (foldList elements)
  | .values elements => .values (foldList elements)
  | .column c => .column c
  | .document c path => .document c path
  | .literal l => .literal l
  | .parameter p => .parameter p
  | .sessionVariable name system => .sessionVariable name system
  | .timeKey word => .timeKey word
  | .subQuery query => .subQuery (foldSubQuery query)
  | .allOf query => .allOf (foldSubQuery query)
  | .anyOf word query => .anyOf word (foldSubQuery query)
  | .hierarchical start connect noCycle =>
    .hierarchical (foldOption start) (fold connect) noCycle
  | .hint h => .hint h

/-- Folds an expression that may be absent. -/
def foldOption : Option Expr → Option α
  | none => none
  | some e => some (fold e)

/-- Folds the expressions of a list one by one. -/
def foldList : List Expr → List α
  | [] => []
  | e :: rest => fold e :: foldList rest

/-- Folds the expressions of a list of rows. -/
def foldLists : List (List Expr) → List (List α)
  | [] => []
  | list :: rest => foldList list :: foldLists rest

/-- Folds an argument list that may be absent. -/
def foldOptionList : Option (List Expr) → Option (List α)
  | none => none
  | some list => some (foldList list)

/-- Folds the expression of an ordering key. -/
def foldOrderKey : OrderKey Expr → OrderKey α
  | ⟨expr, direction, nulls⟩ => ⟨fold expr, direction, nulls⟩

/-- Folds the keys of an ordering. -/
def foldOrderKeys : List (OrderKey Expr) → List (OrderKey α)
  | [] => []
  | key :: rest => foldOrderKey key :: foldOrderKeys rest

/-- Folds the ordering of a keep clause. -/
def foldKeep : Keep Expr → Keep α
  | ⟨name, first, orderBy⟩ => ⟨name, first, foldOrderKeys orderBy⟩

/-- Folds a keep clause that may be absent. -/
def foldOptionKeep : Option (Keep Expr) → Option (Keep α)
  | none => none
  | some keep => some (foldKeep keep)

/-- Folds the offset of a frame bound, if it has one. -/
def foldBound : FrameBound Expr → FrameBound α
  | .unboundedPreceding => .unboundedPreceding
  | .unboundedFollowing => .unboundedFollowing
  | .currentRow => .currentRow
  | .preceding offset => .preceding (fold offset)
  | .following offset => .following (fold offset)

/-- Folds the offsets of one bound or of two. -/
def foldExtent : FrameExtent Expr → FrameExtent α
  | .single bound => .single (foldBound bound)
  | .between start stop => .between (foldBound start) (foldBound stop)

/-- Folds the offsets of a frame. -/
def foldFrame : Frame Expr → Frame α
  | ⟨unit, extent⟩ => ⟨unit, foldExtent extent⟩

/-- Folds a frame that may be absent. -/
def foldOptionFrame : Option (Frame Expr) → Option (Frame α)
  | none => none
  | some frame => some (foldFrame frame)

/-- Folds the condition and the result of a branch. -/
def foldWhen : When Expr → When α
  | ⟨condition, result⟩ => ⟨fold condition, fold result⟩

/-- Folds the branches of a case expression. -/
def foldWhens : List (When Expr) → List (When α)
  | [] => []
  | branch :: rest => foldWhen branch :: foldWhens rest

/-- Folds the operand, the branches and the alternative of a case expression. -/
def foldCase : Case Expr → Case α
  | ⟨operand, branches, otherwise⟩ =>
    ⟨foldOption operand, foldWhens branches, foldOption otherwise⟩

/-- Folds the arguments and the keep clause of a call. -/
def foldCall : Call Expr → Call α
  | ⟨name, arguments, quantifier, allColumns, escaped, field, keep⟩ =>
    ⟨name, foldOptionList arguments, quantifier, allColumns, escaped, field, foldOptionKeep keep⟩

/-- Folds all fields of an analytic function, those included that are not written. -/
def foldAnalytic : Analytic Expr → Analytic α
  | ⟨name, kind, argument, offset, defaultValue, allColumns, distinct, ignoreNulls, keep,
      partitionBy, orderBy, frame⟩ =>
    ⟨name, kind, foldOption argument, foldOption offset, foldOption defaultValue, allColumns,
      distinct, ignoreNulls, foldOptionKeep keep, foldList partitionBy, foldOrderKeys orderBy,
      foldOptionFrame frame⟩

/-- Folds the arguments and the ordering of a concatenation. -/
def foldGroupConcat : GroupConcat Expr → GroupConcat α
  | ⟨distinct, arguments, orderBy, separator⟩ =>
    ⟨distinct, foldList arguments, foldOrderKeys orderBy, separator⟩

/-- Folds the expression of a select item, if it has one. -/
def foldSelectItem : SelectItem Expr → SelectItem α
  | .allColumns => .allColumns
  | .tableColumns table => .tableColumns table
  | .expr e label => .expr (fold e) label

/-- Folds the entries of a select list. -/
def foldSelectItems : List (SelectItem Expr) → List (SelectItem α)
  | [] => []
  | item :: rest => foldSelectItem item :: foldSelectItems rest

/-- Folds the clauses of a select. -/
def foldSelect : Select Expr → Select α
  | ⟨distinct, items, source, condition, groupBy, having, orderBy, limit⟩ =>
    ⟨distinct, foldSelectItems items, source, foldOption condition, foldList groupBy,
      foldOption having, foldOrderKeys orderBy, foldOption limit⟩

/-- Folds the selects of a query on both sides of its set operators. -/
def foldQuery : Query Expr → Query α
  | .plain select => .plain (foldSelect select)
  | .compound op all left right => .compound op all (foldQuery left) (foldQuery right)

/-- Folds the query of a common table. -/
def foldCommonTable : CommonTable Expr → CommonTable α
  | ⟨name, columns, query⟩ => ⟨name, columns, foldQuery query⟩

/-- Folds the common tables of a sub-query. -/
def foldCommonTables : List (CommonTable Expr) → List (CommonTable α)
  | [] => []
  | table :: rest => foldCommonTable table :: foldCommonTables rest

/-- Folds the query of a sub-query and its common tables. -/
def foldSubQuery : SubQuery Expr → SubQuery α
  | ⟨query, commonTables, brackets⟩ =>
    ⟨foldQuery query, foldCommonTables commonTables, brackets⟩

/-- Folds the values, the rows or the query of items. -/
def foldItems : Items Expr → Items α
  | .list values => .list (foldList values)
  | .rows lists => .rows (foldLists lists)
  | .query sub => .query (foldSubQuery sub)

/-- Folds the left side of a membership test. -/
def foldMember : Member Expr → Member α
  | .expr e => .expr (fold e)
  | .items is => .items (foldItems is)

end

/-! Each part of the fold applies the fold to the expressions in the part. -/

theorem foldOption_eq (o : Option Expr) : foldOption rule o = o.map (fold rule) := by
  cases o <;> rfl

theorem foldList_eq (es : List Expr) : foldList rule es = es.map (fold rule) := by
  induction es with
  | nil => rfl
  | cons e rest ih => rw [foldList, ih, List.map_cons]

theorem foldLists_eq (ls : List (List Expr)) :
    foldLists rule ls = ls.map (List.map (fold rule)) := by
  induction ls with
  | nil => rfl
  | cons l rest ih => rw [foldLists, ih, foldList_eq, List.map_cons]

theorem foldOptionList_eq (o : Option (List Expr)) :
    foldOptionList rule o = o.map (List.map (fold rule)) := by
  cases o with
  | none => rfl
  | some list => rw [foldOptionList, foldList_eq, Option.map_some]

theorem foldOrderKeys_eq (keys : List (OrderKey Expr)) :
    foldOrderKeys rule keys = keys.map (OrderKey.map (fold rule)) := by
  induction keys with
  | nil => rfl
  | cons key rest ih =>
    cases key
    rw [foldOrderKeys, ih, List.map_cons, foldOrderKey, OrderKey.map]

theorem foldKeep_eq (keep : Keep Expr) : foldKeep rule keep = keep.map (fold rule) := by
  cases keep
  rw [foldKeep, foldOrderKeys_eq, Keep.map]

theorem foldOptionKeep_eq (o : Option (Keep Expr)) :
    foldOptionKeep rule o = o.map (Keep.map (fold rule)) := by
  cases o with
  | none => rfl
  | some keep => rw [foldOptionKeep, foldKeep_eq, Option.map_some]

theorem foldBound_eq (bound : FrameBound Expr) :
    foldBound rule bound = bound.map (fold rule) := by
  cases bound <;> rfl

theorem foldExtent_eq (extent : FrameExtent Expr) :
    foldExtent rule extent = extent.map (fold rule) := by
  cases extent <;> simp only [foldExtent, FrameExtent.map, foldBound_eq]

theorem foldFrame_eq (frame : Frame Expr) : foldFrame rule frame = frame.map (fold rule) := by
  cases frame
  rw [foldFrame, foldExtent_eq, Frame.map]

theorem foldOptionFrame_eq (o : Option (Frame Expr)) :
    foldOptionFrame rule o = o.map (Frame.map (fold rule)) := by
  cases o with
  | none => rfl
  | some frame => rw [foldOptionFrame, foldFrame_eq, Option.map_some]

theorem foldWhens_eq (branches : List (When Expr)) :
    foldWhens rule branches = branches.map (When.map (fold rule)) := by
  induction branches with
  | nil => rfl
  | cons branch rest ih =>
    cases branch
    rw [foldWhens, ih, List.map_cons, foldWhen, When.map]

theorem foldCase_eq (c : Case Expr) : foldCase rule c = c.map (fold rule) := by
  cases c
  simp only [foldCase, Case.map, foldOption_eq, foldWhens_eq]

theorem foldCall_eq (c : Call Expr) : foldCall rule c = c.map (fold rule) := by
  cases c
  simp only [foldCall, Call.map, foldOptionList_eq, foldOptionKeep_eq]

theorem foldAnalytic_eq (a : Analytic Expr) : foldAnalytic rule a = a.map (fold rule) := by
  cases a
  simp only [foldAnalytic, Analytic.map, foldOption_eq, foldOptionKeep_eq, foldList_eq,
    foldOrderKeys_eq, foldOptionFrame_eq]

theorem foldGroupConcat_eq (g : GroupConcat Expr) :
    foldGroupConcat rule g = g.map (fold rule) := by
  cases g
  simp only [foldGroupConcat, GroupConcat.map, foldList_eq, foldOrderKeys_eq]

theorem foldSelectItem_eq (item : SelectItem Expr) :
    foldSelectItem rule item = item.map (fold rule) := by
  cases item <;> rfl

theorem foldSelectItems_eq (items : List (SelectItem Expr)) :
    foldSelectItems rule items = items.map (SelectItem.map (fold rule)) := by
  induction items with
  | nil => rfl
  | cons item rest ih => rw [foldSelectItems, ih, foldSelectItem_eq, List.map_cons]

theorem foldSelect_eq (select : Select Expr) :
    foldSelect rule select = select.map (fold rule) := by
  cases select
  simp only [foldSelect, Select.map, foldSelectItems_eq, foldOption_eq, foldList_eq,
    foldOrderKeys_eq]

theorem foldQuery_eq (query : Query Expr) : foldQuery rule query = query.map (fold rule) := by
  induction query with
  | plain select => rw [foldQuery, foldSelect_eq, Query.map]
  | compound op all left right ihl ihr => rw [foldQuery, ihl, ihr, Query.map]

theorem foldCommonTable_eq (table : CommonTable Expr) :
    foldCommonTable rule table = table.map (fold rule) := by
  cases table
  simp only [foldCommonTable, CommonTable.map, foldQuery_eq]

theorem foldCommonTables_eq (tables : List (CommonTable Expr)) :
    foldCommonTables rule tables = tables.map (CommonTable.map (fold rule)) := by
  induction tables with
  | nil => rfl
  | cons table rest ih => rw [foldCommonTables, ih, foldCommonTable_eq, List.map_cons]

theorem foldSubQuery_eq (sub : SubQuery Expr) :
    foldSubQuery rule sub = sub.map (fold rule) := by
  cases sub
  simp only [foldSubQuery, SubQuery.map, foldQuery_eq, foldCommonTables_eq]

theorem foldItems_eq (items : Items Expr) : foldItems rule items = items.map (fold rule) := by
  cases items <;> simp only [foldItems, Items.map, foldList_eq, foldLists_eq, foldSubQuery_eq]

theorem foldMember_eq (member : Member Expr) :
    foldMember rule member = member.map (fold rule) := by
  cases member <;> simp only [foldMember, Member.map, foldItems_eq]

theorem foldNode_eq (n : Node Expr) : foldNode rule n = n.map (fold rule) := by
  cases n <;>
    simp only [foldNode, Node.map, foldOption_eq, foldList_eq, foldMember_eq, foldItems_eq,
      foldCase_eq, foldCall_eq, foldAnalytic_eq, foldGroupConcat_eq, foldSubQuery_eq]

/-- Folding a tree: fold its immediate parts, then apply the rule. -/
theorem fold_node (n : Node Expr) : fold rule (.node n) = rule (n.map (fold rule)) := by
  rw [fold, foldNode_eq]

end Fold

end Expr

end SqlText
