import SqlText.Expr.Clauses
import SqlText.Expr.Lemmas
import SqlText.Proofs.Json.Reading

/-!
# Trees are written in one of their forms

What is written for a tree is one of its forms (`forms_encode`, one theorem for each type). A record
is written as an object of all its fields in their order, with `null` for an absent one; a variant
without payload is written as its tag alone.

A clause is written in one of its forms if its sub-expressions are. For whole trees the two folds,
into forms and into JSON values, are run side by side on values that hold both (`Forms.Pointed`).
-/

namespace SqlText

open Forms

variable {α ε : Type}

/-! ## Rules -/

namespace Forms

@[simp] theorem string_str (text : String) : Forms.string text (.str text) := rfl

@[simp] theorem bool_bool (value : Bool) : Forms.bool value (.bool value) := rfl

@[simp] theorem tag_str (name : String) : Forms.tag name (.str name) := .text .alone

theorem tagged_holding {tag : String} {payload : Forms} {j : Json} (h : payload j) :
    Tagged (.holding tag payload) (.tagged tag j) :=
  .object (.payload h)

/-- A list is written item by item. -/
theorem items_arr {forms : α → Forms} {json : α → Json} (h : ∀ a, forms a (json a)) (xs : List α) :
    Items (xs.map forms) (.arr (xs.map json)) := by
  refine .arr (List.forall₂_map_left_iff.2 (List.forall₂_map_right_iff.2 ?_))
  exact List.forall₂_same.2 fun x _ => h x

/-- An absent value is written as `null`. -/
theorem nullable_ofOption {forms : α → Forms} {json : α → Json} (h : ∀ a, forms a (json a))
    (o : Option α) : Nullable (o.map forms) (.ofOption (o.map json)) := by
  cases o with
  | none => exact .null
  | some a => exact .value (h a)

@[simp] theorem nullable_ofText? (o : Option String) : Nullable (o.map .string) (.ofText? o) :=
  nullable_ofOption string_str o

@[simp] theorem nullable_word16 (o : Option UInt16) :
    Nullable (o.map .word16) (.ofNat? (o.map UInt16.toNat)) := by
  cases o with
  | none => exact .null
  | some n => exact .value rfl

@[simp] theorem nullable_word32 (o : Option UInt32) :
    Nullable (o.map .word32) (.ofNat? (o.map UInt32.toNat)) := by
  cases o with
  | none => exact .null
  | some n => exact .value rfl

end Forms

/-! ## Operators -/

@[simp] theorem PatternOp.forms_encode (op : PatternOp) : op.forms op.encode := tag_str _

@[simp] theorem RegexpWord.forms_encode (op : RegexpWord) : op.forms op.encode := tag_str _

@[simp] theorem DocumentOp.forms_encode (op : DocumentOp) : op.forms op.encode := tag_str _

@[simp] theorem InequalitySign.forms_encode (sign : InequalitySign) : sign.forms sign.encode :=
  tag_str _

@[simp] theorem OuterJoin.forms_encode (join : OuterJoin) : join.forms join.encode := tag_str _

@[simp] theorem Sign.forms_encode (sign : Sign) : sign.forms sign.encode := tag_str _

@[simp] theorem AnyWord.forms_encode (word : AnyWord) : word.forms word.encode := tag_str _

@[simp] theorem SetQuantifier.forms_encode (quantifier : SetQuantifier) :
    quantifier.forms quantifier.encode :=
  tag_str _

@[simp] theorem AnalyticKind.forms_encode (kind : AnalyticKind) : kind.forms kind.encode :=
  tag_str _

@[simp] theorem FrameUnit.forms_encode (unit : FrameUnit) : unit.forms unit.encode := tag_str _

@[simp] theorem Direction.forms_encode (direction : Direction) :
    direction.forms direction.encode :=
  tag_str _

@[simp] theorem NullPlacement.forms_encode (placement : NullPlacement) :
    placement.forms placement.encode :=
  tag_str _

@[simp] theorem SetOp.forms_encode (op : SetOp) : op.forms op.encode := tag_str _

@[simp] theorem DateTimeWord.forms_encode (word : DateTimeWord) : word.forms word.encode :=
  tag_str _

@[simp] theorem BinaryOp.forms_encode (op : BinaryOp) : op.forms op.encode := by
  cases op with
  | pattern op => exact tagged_holding op.forms_encode
  | regexp op => exact tagged_holding op.forms_encode
  | document op => exact tagged_holding op.forms_encode
  | _ => exact .text .alone

@[simp] theorem ComparisonOp.forms_encode (op : ComparisonOp) : op.forms op.encode := by
  cases op with
  | notEquals sign => exact tagged_holding sign.forms_encode
  | _ => exact .text .alone

/-! ## Leaves of the tree -/

@[simp] theorem Alias.forms_encode (label : Alias) : label.forms label.encode := by
  refine .object ⟨?_⟩
  simp [slots, List.lookup_cons]

@[simp] theorem Table.forms_encode (table : Table) : table.forms table.encode := by
  refine .object ⟨?_⟩
  simp [slots, List.lookup_cons, nullable_ofOption Alias.forms_encode]

@[simp] theorem Column.forms_encode (column : Column) : column.forms column.encode := by
  refine .object ⟨?_⟩
  simp [slots, List.lookup_cons, nullable_ofOption Table.forms_encode]

@[simp] theorem PathStep.forms_encode (step : PathStep) : step.forms step.encode := by
  refine .object ⟨?_⟩
  simp [slots, List.lookup_cons]

@[simp] theorem Hint.forms_encode (hint : Hint) : hint.forms hint.encode := by
  refine .object ⟨?_⟩
  simp [slots, List.lookup_cons]

@[simp] theorem QuotedText.forms_encode (q : QuotedText) : q.forms q.encode := by
  refine .object ⟨?_⟩
  simp [slots, List.lookup_cons]

@[simp] theorem Literal.forms_encode (l : Literal) : l.forms l.encode := by
  cases l with
  | long spelling => exact tagged_holding (string_str spelling)
  | double spelling => exact tagged_holding (string_str spelling)
  | hex spelling => exact tagged_holding (string_str spelling)
  | string value => exact tagged_holding value.forms_encode
  | date value => exact tagged_holding (.str value.spelling_text)
  | time value => exact tagged_holding (.str value.spelling_text)
  | timestamp value => exact tagged_holding (.str value.spelling_isoText)
  | dateTime word value =>
    refine tagged_holding ⟨?_⟩
    simp [List.lookup_cons]
  | null => exact .text .alone

@[simp] theorem Parameter.forms_encode (p : Parameter) : p.forms p.encode := by
  cases p with
  | numeric index => exact tagged_holding rfl
  | _ =>
    refine tagged_holding ⟨?_⟩
    simp [List.lookup_cons]

namespace DataType

theorem forms_encodePrecision (precision scale : Option UInt16) :
    Forms.Object (precisionSlots precision scale) (encodePrecision precision scale) := by
  refine ⟨?_⟩
  simp [precisionSlots, List.lookup_cons]

@[simp] theorem forms_encode (type : DataType) : type.forms type.encode := by
  induction type with
  | decimal precision scale => exact tagged_holding (forms_encodePrecision precision scale)
  | numeric precision scale => exact tagged_holding (forms_encodePrecision precision scale)
  | char length => exact tagged_holding (nullable_word32 length)
  | varchar length => exact tagged_holding (nullable_word32 length)
  | varbinary length => exact tagged_holding (nullable_word32 length)
  | array element ih => exact tagged_holding ih
  | custom name => exact tagged_holding (string_str name)
  | _ => exact .text .alone

end DataType

/-! ## Clauses -/

section Clauses

variable {forms : ε → Forms} {json : ε → Json} (h : ∀ e, forms e (json e))

include h

theorem Arguments.forms_encode (arguments : List ε) :
    Arguments.forms (arguments.map forms) (Arguments.encode (arguments.map json)) := by
  refine .object ⟨?_⟩
  simp [slots, List.lookup_cons, items_arr h]

theorem OrderKey.forms_encode (key : OrderKey ε) :
    (key.map forms).forms (key.map json).encode := by
  refine .object ⟨?_⟩
  simp [slots, map, List.lookup_cons, h, nullable_ofOption Direction.forms_encode,
    nullable_ofOption NullPlacement.forms_encode]

theorem Keep.forms_encode (keep : Keep ε) : (keep.map forms).forms (keep.map json).encode := by
  refine .object ⟨?_⟩
  simp [slots, map, List.lookup_cons, items_arr (OrderKey.forms_encode h), Function.comp_def]

theorem FrameBound.forms_encode (bound : FrameBound ε) :
    (bound.map forms).forms (bound.map json).encode := by
  cases bound with
  | preceding offset => exact tagged_holding (h offset)
  | following offset => exact tagged_holding (h offset)
  | _ => exact .text .alone

theorem FrameExtent.forms_encode (extent : FrameExtent ε) :
    (extent.map forms).forms (extent.map json).encode := by
  cases extent with
  | single bound => exact tagged_holding (bound.forms_encode h)
  | between start stop =>
    refine tagged_holding ⟨?_⟩
    simp [List.lookup_cons, FrameBound.forms_encode h]

theorem Frame.forms_encode (frame : Frame ε) : (frame.map forms).forms (frame.map json).encode := by
  refine .object ⟨?_⟩
  simp [slots, map, List.lookup_cons, FrameExtent.forms_encode h]

theorem When.forms_encode (branch : When ε) :
    (branch.map forms).forms (branch.map json).encode := by
  refine .object ⟨?_⟩
  simp [slots, map, List.lookup_cons, h]

theorem Case.forms_encode (c : Case ε) : (c.map forms).forms (c.map json).encode := by
  refine .object ⟨?_⟩
  simp [slots, map, List.lookup_cons, nullable_ofOption h, items_arr (When.forms_encode h),
    Function.comp_def]

theorem Call.forms_encode (call : Call ε) : (call.map forms).forms (call.map json).encode := by
  refine .object ⟨?_⟩
  simp [slots, map, List.lookup_cons, nullable_ofOption (Arguments.forms_encode h),
    nullable_ofOption SetQuantifier.forms_encode, nullable_ofOption (Keep.forms_encode h),
    Function.comp_def]

theorem Analytic.forms_encode (a : Analytic ε) : (a.map forms).forms (a.map json).encode := by
  refine .object ⟨?_⟩
  simp [slots, map, List.lookup_cons, nullable_ofOption h, items_arr h,
    nullable_ofOption (Keep.forms_encode h), items_arr (OrderKey.forms_encode h),
    nullable_ofOption (Frame.forms_encode h), Function.comp_def]

theorem GroupConcat.forms_encode (g : GroupConcat ε) :
    (g.map forms).forms (g.map json).encode := by
  refine .object ⟨?_⟩
  simp [slots, map, List.lookup_cons, Arguments.forms_encode h, items_arr (OrderKey.forms_encode h),
    Function.comp_def]

theorem SelectItem.forms_encode (item : SelectItem ε) :
    (item.map forms).forms (item.map json).encode := by
  cases item with
  | allColumns => exact .text .alone
  | tableColumns table => exact tagged_holding table.forms_encode
  | expr e label =>
    refine tagged_holding ⟨?_⟩
    simp [List.lookup_cons, h, nullable_ofOption Alias.forms_encode]

theorem Select.forms_encode (select : Select ε) :
    (select.map forms).forms (select.map json).encode := by
  refine .object ⟨?_⟩
  simp [slots, map, List.lookup_cons, items_arr (SelectItem.forms_encode h),
    nullable_ofOption Table.forms_encode, nullable_ofOption h, items_arr h,
    items_arr (OrderKey.forms_encode h), Function.comp_def]

theorem Query.forms_encode (query : Query ε) :
    (query.map forms).forms (query.map json).encode := by
  induction query with
  | plain select => exact tagged_holding (select.forms_encode h)
  | compound op all left right ihl ihr =>
    refine tagged_holding ⟨?_⟩
    simp only [Query.forms] at ihl ihr
    simp [List.lookup_cons, ihl, ihr]

theorem CommonTable.forms_encode (table : CommonTable ε) :
    (table.map forms).forms (table.map json).encode := by
  refine .object ⟨?_⟩
  simp [slots, map, List.lookup_cons, items_arr string_str, Query.forms_encode h]

theorem SubQuery.forms_encode (sub : SubQuery ε) :
    (sub.map forms).forms (sub.map json).encode := by
  refine .object ⟨?_⟩
  simp [slots, map, List.lookup_cons, Query.forms_encode h, items_arr (CommonTable.forms_encode h),
    Function.comp_def]

theorem Items.forms_encode (items : Items ε) : (items.map forms).forms (items.map json).encode := by
  cases items with
  | list values => exact tagged_holding (Arguments.forms_encode h values)
  | rows lists =>
    have hrows := items_arr (Arguments.forms_encode h) lists
    refine tagged_holding ?_
    rw [List.map_map, List.map_map]
    exact hrows
  | query sub => exact tagged_holding (sub.forms_encode h)

theorem Member.forms_encode (member : Member ε) :
    (member.map forms).forms (member.map json).encode := by
  cases member with
  | expr e => exact tagged_holding (h e)
  | items is => exact tagged_holding (is.forms_encode h)

/-! ## Expressions -/

theorem Node.forms_encode (n : Node ε) : (n.map forms).forms (n.map json).encode := by
  cases n with
  | not e => exact tagged_holding (h e)
  | case c => exact tagged_holding (c.forms_encode h)
  | call c => exact tagged_holding (c.forms_encode h)
  | analytic a => exact tagged_holding (a.forms_encode h)
  | groupConcat g => exact tagged_holding (g.forms_encode h)
  | values elements => exact tagged_holding (Arguments.forms_encode h elements)
  | column c => exact tagged_holding c.forms_encode
  | literal l => exact tagged_holding l.forms_encode
  | parameter p => exact tagged_holding p.forms_encode
  | timeKey word => exact tagged_holding (string_str word)
  | subQuery query => exact tagged_holding (query.forms_encode h)
  | allOf query => exact tagged_holding (query.forms_encode h)
  | hint x => exact tagged_holding x.forms_encode
  | _ =>
    refine tagged_holding ⟨?_⟩
    simp [List.lookup_cons, h, items_arr h, nullable_ofOption h, Member.forms_encode h,
      Items.forms_encode h, SubQuery.forms_encode h, items_arr PathStep.forms_encode]

end Clauses

/-- Forms together with one of them. -/
structure Forms.Pointed where
  forms : Forms
  json : Json
  admitted : forms json

/-- A node is written in one of its forms if its sub-expressions are. -/
def Node.pointed (n : Node Forms.Pointed) : Forms.Pointed where
  forms := (n.map Pointed.forms).forms
  json := (n.map Pointed.json).encode
  admitted := n.forms_encode Pointed.admitted

namespace Expr

/-- The forms of an expression together with what is written for it. -/
def pointed : Expr → Forms.Pointed :=
  fold Node.pointed

theorem pointed_forms (e : Expr) : e.pointed.forms = e.forms := by
  refine eq_fold (f := fun e => e.pointed.forms) (fun n => ?_) e
  rw [pointed, fold_node]
  exact congrArg Node.forms (Node.map_map _ _ n)

theorem pointed_json (e : Expr) : e.pointed.json = e.toJson := by
  refine eq_fold (f := fun e => e.pointed.json) (fun n => ?_) e
  rw [pointed, fold_node]
  exact congrArg Node.encode (Node.map_map _ _ n)

theorem forms_toJson (e : Expr) : e.forms e.toJson := by
  rw [← pointed_forms, ← pointed_json]
  exact e.pointed.admitted

end Expr

end SqlText
