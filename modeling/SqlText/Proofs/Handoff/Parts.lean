import SqlText.Expr.Build
import SqlText.Expr.Clauses
import SqlText.Expr.Lemmas
import SqlText.Render.Step

/-!
# What is handed over

`Node.parts` lists what a node writes besides its own words, from left to right : sub-expressions,
sub-expressions that are isolated from the query renderer, and what is handed to that renderer. A
sub-query hands over its common tables one by one, then its query, and what stands in a thing that
is handed over follows it in the list. The operands of a set operator and the query of a common
table are not handed over again. Fields that no text shows have no part.

`Expr.handedOver` follows the parts down the tree, depth first, and leaves isolated parts out.
-/

namespace SqlText

variable {ε δ φ : Type}

/-! ## Parts of clauses -/

/-- Whether a query combines two queries. -/
def Query.isCompound : Query ε → Bool
  | .plain _ => false
  | .compound _ _ _ _ => true

/-- Something that is handed to the query renderer. -/
inductive Handed (ε : Type) where
  | query (query : Query ε)
  | commonTable (table : CommonTable ε)

namespace Handed

/-- Applies a function to the sub-expressions of what is handed over. -/
def map (f : ε → δ) : Handed ε → Handed δ
  | query q => query (q.map f)
  | commonTable table => commonTable (table.map f)

/-- How the hand-off is recorded. -/
def handoff : Handed ε → Handoff
  | query q => .query q.isCompound
  | commonTable table => .commonTable table.name

/-- The text in the built-in way, given the texts of the sub-expressions. -/
def text : Handed String → String
  | query q => q.text
  | commonTable table => table.text

/-- The SQL text of what is handed over. -/
def sql : Handed Expr → String
  | query q => q.sql
  | commonTable table => table.sql

theorem text_map_sql (h : Handed Expr) : (h.map Expr.sql).text = h.sql := by
  cases h <;> rfl

end Handed

/-- Something that a node writes besides its own words. -/
inductive Part (ε : Type) where
  | expr (expr : ε)
  /-- A sub-expression whose queries are always rendered in the built-in way. -/
  | isolated (expr : ε)
  /-- A hand-off; the parts of what is handed over follow it. -/
  | handed (handed : Handed ε)

/-- Applies a function to the sub-expressions of a part, whichever way it is written. -/
def Part.map (f : ε → δ) : Part ε → Part δ
  | expr e => expr (f e)
  | isolated e => isolated (f e)
  | handed h => handed (h.map f)

/-- A key writes its expression; the words behind it are its own. -/
def OrderKey.parts (key : OrderKey ε) : List (Part ε) :=
  [.expr key.expr]

/-- A keep clause writes its ordering. -/
def Keep.parts (keep : Keep ε) : List (Part ε) :=
  keep.orderBy.flatMap OrderKey.parts

/-- The offset of a bound is isolated. -/
def FrameBound.parts : FrameBound ε → List (Part ε)
  | preceding offset => [.isolated offset]
  | following offset => [.isolated offset]
  | _ => []

/-- Both ends of an extent, the start first. -/
def FrameExtent.parts : FrameExtent ε → List (Part ε)
  | single bound => bound.parts
  | between start stop => start.parts ++ stop.parts

/-- A frame writes nothing but its extent. -/
def Frame.parts (frame : Frame ε) : List (Part ε) :=
  frame.extent.parts

/-- The condition, then the result. -/
def When.parts (branch : When ε) : List (Part ε) :=
  [.expr branch.condition, .expr branch.result]

/-- An operand and an alternative are parts only if they are given. -/
def Case.parts (c : Case ε) : List (Part ε) :=
  c.operand.toList.map .expr ++ c.branches.flatMap When.parts ++ c.otherwise.toList.map .expr

/-- The arguments, if there is a list of them, and the keep clause. -/
def Call.parts (call : Call ε) : List (Part ε) :=
  call.arguments.toList.flatten.map .expr ++ call.keep.toList.flatMap Keep.parts

namespace Analytic

/-- An offset is written only behind an argument, a default value only behind an offset. -/
def argumentParts (a : Analytic ε) : List (Part ε) :=
  match a.argument, a.offset with
  | none, _ => []
  | some argument, none => [.expr argument]
  | some argument, some offset =>
    .expr argument :: .expr offset :: a.defaultValue.toList.map .expr

/-- A frame is written only behind an ordering. -/
def orderParts (a : Analytic ε) : List (Part ε) :=
  if a.orderBy.isEmpty then []
  else a.orderBy.flatMap OrderKey.parts ++ a.frame.toList.flatMap Frame.parts

/-- What is written of an analytic function : fields without the one they depend on are left out. -/
def parts (a : Analytic ε) : List (Part ε) :=
  a.argumentParts ++ a.keep.toList.flatMap Keep.parts ++ a.partitionBy.map .expr ++ a.orderParts

end Analytic

/-- The separator is a string of the clause itself and no part. -/
def GroupConcat.parts (g : GroupConcat ε) : List (Part ε) :=
  g.arguments.map .expr ++ g.orderBy.flatMap OrderKey.parts

/-- An item writes an expression or a star, and a star has no parts. -/
def SelectItem.parts : SelectItem ε → List (Part ε)
  | expr e _ => [.expr e]
  | _ => []

/-- The clauses of a select in the order in which they are written. -/
def Select.parts (select : Select ε) : List (Part ε) :=
  select.items.flatMap SelectItem.parts ++ select.condition.toList.map .expr ++
    select.groupBy.map .expr ++ select.having.toList.map .expr ++
    select.orderBy.flatMap OrderKey.parts ++ select.limit.toList.map .expr

/-- The operands of a set operator are not handed over. -/
def Query.parts : Query ε → List (Part ε)
  | plain select => select.parts
  | compound _ _ left right => left.parts ++ right.parts

/-- A common table is handed over; its query is not. -/
def CommonTable.parts (table : CommonTable ε) : List (Part ε) :=
  .handed (.commonTable table) :: table.query.parts

/-- The common tables are handed over one by one, and then the query. -/
def SubQuery.parts (sub : SubQuery ε) : List (Part ε) :=
  sub.commonTables.flatMap CommonTable.parts ++ .handed (.query sub.query) :: sub.query.parts

/-- Only a query among items is handed over. -/
def Items.parts : Items ε → List (Part ε)
  | list values => values.map .expr
  | rows lists => lists.flatten.map .expr
  | query sub => sub.parts

/-- The left side of a membership test, as the right side if it has several items. -/
def Member.parts : Member ε → List (Part ε)
  | expr e => [.expr e]
  | items is => is.parts

/-- What a node writes besides its own words, from left to right. -/
def Node.parts : Node ε → List (Part ε)
  | binary left _ right _ => [.expr left, .expr right]
  | comparison left _ right _ _ => [.expr left, .expr right]
  | like left right _ _ _ => [.expr left, .expr right]
  | between expr start stop _ => [.expr expr, .expr start, .expr stop]
  | membership member items _ _ => member.parts ++ items.parts
  | isNull expr _ _ => [.expr expr]
  | existence expr _ => [.expr expr]
  | not expr => [.expr expr]
  | signed _ expr => [.expr expr]
  | brackets expr _ => [.expr expr]
  | case c => c.parts
  | call c => c.parts
  | analytic a => a.parts
  | groupConcat g => g.parts
  | cast expr _ _ => [.isolated expr]
  | extract _ expr => [.expr expr]
  | interval _ _ => []
  | row _ elements => elements.map .expr
  | values elements => elements.map .expr
  | column _ => []
  | document _ _ => []
  | literal _ => []
  | parameter _ => []
  | sessionVariable _ _ => []
  | timeKey _ => []
  | subQuery query => query.parts
  | allOf query => query.parts
  | anyOf _ query => query.parts
  | hierarchical start connect _ => start.toList.map .expr ++ [.expr connect]
  | hint _ => []

/-! ## The parts of a mapped clause are the mapped parts -/

@[simp] theorem Part.map_expr (f : ε → δ) (e : ε) : Part.map f (.expr e) = .expr (f e) :=
  rfl

@[simp] theorem Part.map_comp_expr (f : ε → δ) : Part.map f ∘ .expr = .expr ∘ f :=
  rfl

theorem OrderKey.parts_map (f : ε → δ) (key : OrderKey ε) :
    (key.map f).parts = key.parts.map (Part.map f) :=
  rfl

theorem Keep.parts_map (f : ε → δ) (keep : Keep ε) :
    (keep.map f).parts = keep.parts.map (Part.map f) := by
  simp [parts, map, List.flatMap_map, List.map_flatMap, OrderKey.parts_map]

theorem FrameBound.parts_map (f : ε → δ) (bound : FrameBound ε) :
    (bound.map f).parts = bound.parts.map (Part.map f) := by
  cases bound <;> rfl

theorem FrameExtent.parts_map (f : ε → δ) (extent : FrameExtent ε) :
    (extent.map f).parts = extent.parts.map (Part.map f) := by
  cases extent <;> simp [parts, map, FrameBound.parts_map]

theorem Frame.parts_map (f : ε → δ) (frame : Frame ε) :
    (frame.map f).parts = frame.parts.map (Part.map f) :=
  FrameExtent.parts_map f frame.extent

theorem When.parts_map (f : ε → δ) (branch : When ε) :
    (branch.map f).parts = branch.parts.map (Part.map f) :=
  rfl

theorem Case.parts_map (f : ε → δ) (c : Case ε) :
    (c.map f).parts = c.parts.map (Part.map f) := by
  simp [parts, map, Option.toList_map, List.flatMap_map, List.map_flatMap, When.parts_map]

theorem Call.parts_map (f : ε → δ) (call : Call ε) :
    (call.map f).parts = call.parts.map (Part.map f) := by
  simp [parts, map, Option.toList_map, ← List.map_flatten, List.flatMap_map, List.map_flatMap,
    Keep.parts_map]

namespace Analytic

theorem argumentParts_map (f : ε → δ) (a : Analytic ε) :
    (a.map f).argumentParts = a.argumentParts.map (Part.map f) := by
  cases ha : a.argument <;> cases ho : a.offset <;>
    simp [argumentParts, map, ha, ho, Option.toList_map]

theorem orderParts_map (f : ε → δ) (a : Analytic ε) :
    (a.map f).orderParts = a.orderParts.map (Part.map f) := by
  cases ho : a.orderBy <;>
    simp [orderParts, map, ho, Option.toList_map, List.flatMap_map, List.map_flatMap,
      OrderKey.parts_map, Frame.parts_map]

theorem parts_map (f : ε → δ) (a : Analytic ε) :
    (a.map f).parts = a.parts.map (Part.map f) := by
  simp only [parts, argumentParts_map, orderParts_map, List.map_append]
  simp [map, Option.toList_map, List.flatMap_map, List.map_flatMap, Keep.parts_map]

end Analytic

theorem GroupConcat.parts_map (f : ε → δ) (g : GroupConcat ε) :
    (g.map f).parts = g.parts.map (Part.map f) := by
  simp [parts, map, List.flatMap_map, List.map_flatMap, OrderKey.parts_map]

theorem SelectItem.parts_map (f : ε → δ) (item : SelectItem ε) :
    (item.map f).parts = item.parts.map (Part.map f) := by
  cases item <;> rfl

theorem Select.parts_map (f : ε → δ) (select : Select ε) :
    (select.map f).parts = select.parts.map (Part.map f) := by
  simp [parts, map, Option.toList_map, List.flatMap_map, List.map_flatMap,
    OrderKey.parts_map, SelectItem.parts_map]

theorem Query.parts_map (f : ε → δ) (query : Query ε) :
    (query.map f).parts = query.parts.map (Part.map f) := by
  induction query with
  | plain select => exact Select.parts_map f select
  | compound op all left right ihl ihr => simp [parts, map, ihl, ihr]

theorem CommonTable.parts_map (f : ε → δ) (table : CommonTable ε) :
    (table.map f).parts = table.parts.map (Part.map f) := by
  rw [parts, parts, List.map_cons, ← Query.parts_map]
  rfl

theorem SubQuery.parts_map (f : ε → δ) (sub : SubQuery ε) :
    (sub.map f).parts = sub.parts.map (Part.map f) := by
  simp [parts, map, List.flatMap_map, List.map_flatMap, CommonTable.parts_map, Query.parts_map,
    Part.map, Handed.map]

theorem Items.parts_map (f : ε → δ) (items : Items ε) :
    (items.map f).parts = items.parts.map (Part.map f) := by
  cases items with
  | list values => simp [map, parts]
  | rows lists => simp [map, parts, ← List.map_flatten]
  | query sub => exact SubQuery.parts_map f sub

theorem Member.parts_map (f : ε → δ) (member : Member ε) :
    (member.map f).parts = member.parts.map (Part.map f) := by
  cases member with
  | expr e => rfl
  | items is => exact Items.parts_map f is

theorem Node.parts_map (f : ε → δ) (n : Node ε) :
    (n.map f).parts = n.parts.map (Part.map f) := by
  cases n with
  | membership member items negated join =>
    simp [parts, map, Member.parts_map, Items.parts_map]
  | case c => exact Case.parts_map f c
  | call c => exact Call.parts_map f c
  | analytic a => exact Analytic.parts_map f a
  | groupConcat g => exact GroupConcat.parts_map f g
  | row name elements => simp [map, parts]
  | values elements => simp [map, parts]
  | subQuery query => exact SubQuery.parts_map f query
  | allOf query => exact SubQuery.parts_map f query
  | anyOf word query => exact SubQuery.parts_map f query
  | hierarchical start connect noCycle => simp [parts, map, Option.toList_map]
  | _ => rfl

/-! ## Following the parts down the tree -/

namespace Handed

theorem map_map (g : δ → φ) (f : ε → δ) (h : Handed ε) : (h.map f).map g = h.map (g ∘ f) := by
  cases h with
  | query q => simp only [map, Query.map_map]
  | commonTable table => simp only [map, CommonTable.map_map]

theorem map_id : Handed.map (id : ε → ε) = id := by
  funext h
  cases h with
  | query q => simp only [map, Query.map_id, id]
  | commonTable table => simp only [map, CommonTable.map_id, id]

end Handed

namespace Expr

section Para

variable {α : Type} (rule : Node (Expr × α) → α)

/-- Applies a rule that sees the sub-expressions beside their values. -/
def para (e : Expr) : α :=
  (fold (fun n => (Expr.node (n.map Prod.fst), rule n)) e).2

theorem fold_fst (e : Expr) :
    (fold (fun n => (Expr.node (n.map Prod.fst), rule n)) e).1 = e := by
  induction e using Expr.induction with
  | step n ih =>
    rw [fold_node]
    simp only [Node.map_map]
    have hid : n.map (Prod.fst ∘ fold fun n => (Expr.node (n.map Prod.fst), rule n)) = n.map id :=
      Node.map_congr ih
    rw [hid, Node.map_id, id]

theorem para_node (n : Node Expr) :
    para rule (.node n) = rule (n.map fun e => (e, para rule e)) := by
  rw [para, fold_node]
  refine congrArg rule (Node.map_congr fun e _ => ?_)
  exact Prod.ext (fold_fst rule e) rfl

/-- A function that obeys the rule is the one that the rule defines. -/
theorem eq_para {f : Expr → α} (h : ∀ n : Node Expr, f (.node n) = rule (n.map fun e => (e, f e)))
    (e : Expr) : f e = para rule e := by
  induction e using Expr.induction with
  | step n ih =>
    rw [h, para_node]
    refine congrArg rule (Node.map_congr fun e he => ?_)
    rw [ih e he]

end Para

/-- A property that all nodes of a tree have. -/
def Everywhere (P : Node Expr → Prop) : Expr → Prop :=
  para fun n => P (n.map Prod.fst) ∧ ∀ part ∈ n.children, part.2

theorem everywhere_node (P : Node Expr → Prop) (n : Node Expr) :
    (Expr.node n).Everywhere P ↔ P n ∧ ∀ part ∈ n.children, part.Everywhere P := by
  have hfst : (Prod.fst ∘ fun e => (e, Everywhere P e)) = id := rfl
  rw [Everywhere, para_node, Node.map_map, Node.children_map, ← Everywhere, hfst, Node.map_id, id,
    List.forall_mem_map]

/-- What is handed over in a part : of a sub-expression what was found there, of an isolated part
nothing. -/
def handedInPart : Part (Expr × List (Handed Expr)) → List (Handed Expr)
  | .expr e => e.2
  | .isolated _ => []
  | .handed h => [h.map Prod.fst]

/-- What a rendering of the expression hands to the query renderer, in order. -/
def handedOver : Expr → List (Handed Expr) :=
  para fun n => n.parts.flatMap handedInPart

/-- What is handed over at a node : part by part, the hand-offs themselves and what is handed over
in the sub-expressions that are not isolated. -/
theorem handedOver_node (n : Node Expr) :
    (Expr.node n).handedOver =
      n.parts.flatMap fun
        | .expr e => e.handedOver
        | .isolated _ => []
        | .handed h => [h] := by
  rw [handedOver, para_node, Node.parts_map, List.flatMap_map]
  refine congrArg (List.flatMap · n.parts) (funext fun part => ?_)
  cases part with
  | expr e => rfl
  | isolated e => rfl
  | handed h =>
    simp only [Part.map, handedInPart, Handed.map_map]
    exact congrArg (fun f => [f h]) Handed.map_id

-- The query in the cast is isolated, and the operands of the set operator are not handed over.
example :
    let query := Query.plain (.ofItems [.ofExpr (.column "a")])
    let sub := Expr.node (.subQuery ⟨query, [⟨"t", [], query⟩], true⟩)
    let both := Query.compound .union true query (.plain (.ofItems [.ofExpr sub]))
    (Expr.node (.membership (.expr (.node (.cast sub .integer true))) (.query ⟨both, [], true⟩)
        false .absent)).handedOver.map Handed.handoff =
      [.query true, .commonTable "t", .query false] := by
  decide +kernel

end Expr

end SqlText
