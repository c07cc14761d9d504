import Mathlib.Tactic.CasesM
import SqlText.Expr.Clauses
import SqlText.Proofs.Json.Reading

/-!
# Trees are read from their forms

Every type of tree is read from its forms and from nothing else (`reads`, one theorem for each
type). A clause is read up to the depth to which its sub-expressions are. A node is read one level
deeper than its sub-expressions, and so expressions are read at every depth (`Expr.reads`).

A record is read field by field, in the order of its fields. For a tagged type two things are
shown : what is read behind a tag is of that kind, and a value of each kind is read from its
payloads.
-/

namespace SqlText

open Decoder Fields

variable {ε : Type} {n : Nat}

/-! ## Operators -/

theorem PatternOp.reads : PatternOp.decode.Reads n PatternOp.forms :=
  reads_oneOf (by intro op; cases op <;> decide) (by decide)

theorem RegexpWord.reads : RegexpWord.decode.Reads n RegexpWord.forms :=
  reads_oneOf (by intro op; cases op <;> decide) (by decide)

theorem DocumentOp.reads : DocumentOp.decode.Reads n DocumentOp.forms :=
  reads_oneOf (by intro op; cases op <;> decide) (by decide)

theorem InequalitySign.reads : InequalitySign.decode.Reads n InequalitySign.forms :=
  reads_oneOf (by intro sign; cases sign <;> decide) (by decide)

theorem OuterJoin.reads : OuterJoin.decode.Reads n OuterJoin.forms :=
  reads_oneOf (by intro join; cases join <;> decide) (by decide)

theorem Sign.reads : Sign.decode.Reads n Sign.forms :=
  reads_oneOf (by intro sign; cases sign <;> decide) (by decide)

theorem AnyWord.reads : AnyWord.decode.Reads n AnyWord.forms :=
  reads_oneOf (by intro word; cases word <;> decide) (by decide)

theorem SetQuantifier.reads : SetQuantifier.decode.Reads n SetQuantifier.forms :=
  reads_oneOf (by intro quantifier; cases quantifier <;> decide) (by decide)

theorem AnalyticKind.reads : AnalyticKind.decode.Reads n AnalyticKind.forms :=
  reads_oneOf (by intro kind; cases kind <;> decide) (by decide)

theorem FrameUnit.reads : FrameUnit.decode.Reads n FrameUnit.forms :=
  reads_oneOf (by intro unit; cases unit <;> decide) (by decide)

theorem Direction.reads : Direction.decode.Reads n Direction.forms :=
  reads_oneOf (by intro direction; cases direction <;> decide) (by decide)

theorem NullPlacement.reads : NullPlacement.decode.Reads n NullPlacement.forms :=
  reads_oneOf (by intro placement; cases placement <;> decide) (by decide)

theorem SetOp.reads : SetOp.decode.Reads n SetOp.forms :=
  reads_oneOf (by intro op; cases op <;> decide) (by decide)

theorem DateTimeWord.reads : DateTimeWord.decode.Reads n DateTimeWord.forms :=
  reads_oneOf (by intro word; cases word <;> decide) (by decide)

theorem BinaryOp.reads : BinaryOp.decode.Reads n BinaryOp.forms := by
  refine Reads.of_succ (Reads.tagged (fun tag given op hread => ?_) fun given hgiven op => ?_)
  · split at hread
    all_goals simp only [bare_eq_some_iff, Option.map_eq_some_iff, reduceCtorEq] at hread
    all_goals
      casesm* _ ∧ _, ∃ _, _
      subst op
      rfl
  · cases op with
    | pattern op => exact map_payload_iff_admits hgiven PatternOp.reads.iff fun _ _ => pattern.inj
    | regexp op => exact map_payload_iff_admits hgiven RegexpWord.reads.iff fun _ _ => regexp.inj
    | document op =>
      exact map_payload_iff_admits hgiven DocumentOp.reads.iff fun _ _ => document.inj
    | _ => exact bare_iff_admits

theorem ComparisonOp.reads : ComparisonOp.decode.Reads n ComparisonOp.forms := by
  refine Reads.of_succ (Reads.tagged (fun tag given op hread => ?_) fun given hgiven op => ?_)
  · split at hread
    all_goals simp only [bare_eq_some_iff, Option.map_eq_some_iff, reduceCtorEq] at hread
    all_goals
      casesm* _ ∧ _, ∃ _, _
      subst op
      rfl
  · cases op with
    | notEquals sign =>
      exact map_payload_iff_admits hgiven InequalitySign.reads.iff fun _ _ => notEquals.inj
    | _ => exact bare_iff_admits

/-! ## Leaves of the tree -/

theorem Alias.reads : Alias.decode.Reads n Alias.forms := by
  refine Reads.record slots (fun _ => rfl) (by decide) ?_
  rintro given hgiven ⟨name, useAs⟩
  simp [slots, Option.bind_eq_some_iff, required_eq_some_iff hgiven reads_string,
    required_eq_some_iff hgiven reads_bool, -Bool.exists_bool]

theorem Table.reads : Table.decode.Reads n Table.forms := by
  refine Reads.record slots (fun _ => rfl) (by decide) ?_
  rintro given hgiven ⟨schema, name, label⟩
  simp [slots, Option.bind_eq_some_iff, required_eq_some_iff hgiven reads_string,
    optional_eq_some_iff hgiven reads_string, optional_eq_some_iff hgiven Alias.reads]

theorem Column.reads : Column.decode.Reads n Column.forms := by
  refine Reads.record slots (fun _ => rfl) (by decide) ?_
  rintro given hgiven ⟨table, name⟩
  simp [slots, Option.bind_eq_some_iff, required_eq_some_iff hgiven reads_string,
    optional_eq_some_iff hgiven Table.reads]

theorem PathStep.reads : PathStep.decode.Reads n PathStep.forms := by
  refine Reads.record slots (fun _ => rfl) (by decide) ?_
  rintro given hgiven ⟨op, key⟩
  simp [slots, Option.bind_eq_some_iff, required_eq_some_iff hgiven reads_string,
    required_eq_some_iff hgiven DocumentOp.reads]

theorem Hint.reads : Hint.decode.Reads n Hint.forms := by
  refine Reads.record slots (fun _ => rfl) (by decide) ?_
  rintro given hgiven ⟨value, singleLine⟩
  simp [slots, Option.bind_eq_some_iff, required_eq_some_iff hgiven reads_string,
    required_eq_some_iff hgiven reads_bool, -Bool.exists_bool]

theorem QuotedText.reads : QuotedText.decode.Reads n QuotedText.forms := by
  refine Reads.record slots (fun _ => rfl) (by decide) ?_
  rintro given hgiven ⟨marker, value⟩
  simp [slots, Option.bind_eq_some_iff, required_eq_some_iff hgiven reads_string,
    optional_eq_some_iff hgiven reads_string]

theorem Date.reads :
    (Literal.decodeParsed Date.parse?).Reads n fun d => Forms.Spelled d.Spelling :=
  reads_parsed fun _ _ => ofChars?_eq_some_iff

theorem Time.reads :
    (Literal.decodeParsed Time.parse?).Reads n fun t => Forms.Spelled t.Spelling :=
  reads_parsed fun _ _ => ofChars?_eq_some_iff

theorem Timestamp.reads :
    (Literal.decodeParsed Timestamp.parse?).Reads n fun t => Forms.Spelled t.Spelling :=
  reads_parsed fun _ _ => ofChars?_eq_some_iff

theorem Literal.reads : Literal.decode.Reads n Literal.forms := by
  refine Reads.of_succ (Reads.tagged (fun tag given l hread => ?_) fun given hgiven l => ?_)
  · split at hread
    all_goals
      simp only [decodeDateTime, bare_eq_some_iff, Option.map_eq_some_iff,
        payload_fields_eq_some_iff, Option.bind_eq_bind, Option.bind_eq_some_iff, Option.pure_def,
        Option.some.injEq, reduceCtorEq] at hread
    all_goals
      casesm* _ ∧ _, ∃ _, _
      subst l
      rfl
  · cases l with
    | long spelling => exact map_payload_iff_admits hgiven reads_string.iff fun _ _ => long.inj
    | double spelling => exact map_payload_iff_admits hgiven reads_string.iff fun _ _ => double.inj
    | hex spelling => exact map_payload_iff_admits hgiven reads_string.iff fun _ _ => hex.inj
    | string value => exact map_payload_iff_admits hgiven QuotedText.reads.iff fun _ _ => string.inj
    | date value => exact map_payload_iff_admits hgiven Date.reads.iff fun _ _ => date.inj
    | time value => exact map_payload_iff_admits hgiven Time.reads.iff fun _ _ => time.inj
    | timestamp value =>
      exact map_payload_iff_admits hgiven Timestamp.reads.iff fun _ _ => timestamp.inj
    | dateTime word value =>
      refine payload_fields_iff_admits hgiven fun given hgiven => ?_
      simp [Option.bind_eq_some_iff, required_eq_some_iff hgiven reads_string,
        required_eq_some_iff hgiven DateTimeWord.reads]
    | null => exact bare_iff_admits

theorem Parameter.reads : Parameter.decode.Reads n Parameter.forms := by
  refine Reads.of_succ (Reads.tagged (fun tag given p hread => ?_) fun given hgiven p => ?_)
  · split at hread
    all_goals
      simp only [decodePositional, decodeNamed, decodeMarkup, Option.map_eq_some_iff,
        payload_fields_eq_some_iff, Option.bind_eq_bind, Option.bind_eq_some_iff, Option.pure_def,
        Option.some.injEq, reduceCtorEq] at hread
    all_goals
      casesm* _ ∧ _, ∃ _, _
      subst p
      rfl
  · cases p with
    | positional index =>
      refine payload_fields_iff_admits hgiven fun given hgiven => ?_
      simp [Option.bind_eq_some_iff, optional_eq_some_iff hgiven reads_word32]
    | named name typeSuffix =>
      refine payload_fields_iff_admits hgiven fun given hgiven => ?_
      simp [Option.bind_eq_some_iff, required_eq_some_iff hgiven reads_string,
        optional_eq_some_iff hgiven reads_string]
    | numeric index => exact map_payload_iff_admits hgiven reads_word32.iff fun _ _ => numeric.inj
    | markup typeSuffix =>
      refine payload_fields_iff_admits hgiven fun given hgiven => ?_
      simp [Option.bind_eq_some_iff, optional_eq_some_iff hgiven reads_string]

namespace DataType

theorem reads_precision :
    decodePrecision.Reads n fun p => Forms.Object (precisionSlots p.1 p.2) := by
  refine Reads.fields (fun p : Option UInt16 × Option UInt16 => precisionSlots p.1 p.2) ?_
  rintro given hgiven ⟨precision, scale⟩
  simp [precisionSlots, Option.bind_eq_some_iff, optional_eq_some_iff hgiven reads_word16]

/-- A type is read one level deeper than the element types of arrays. -/
theorem reads_step {self : Decoder DataType} (h : self.Reads n forms) :
    (decodeStep self).Reads (n + 1) forms := by
  have hlength := nullable_eq_some_iff (reads_word32 (n := n))
  refine Reads.tagged (fun tag given type hread => ?_) fun given hgiven type => ?_
  · split at hread
    all_goals simp only [bare_eq_some_iff, Option.map_eq_some_iff, reduceCtorEq] at hread
    all_goals
      casesm* _ ∧ _, ∃ _, _
      subst type
      rfl
  · cases type with
    | decimal precision scale =>
      exact map_payload_iff_admits (b := (precision, scale)) hgiven reads_precision.iff
        fun _ _ heq => Prod.ext (decimal.inj heq).1 (decimal.inj heq).2
    | numeric precision scale =>
      exact map_payload_iff_admits (b := (precision, scale)) hgiven reads_precision.iff
        fun _ _ heq => Prod.ext (numeric.inj heq).1 (numeric.inj heq).2
    | char length => exact map_payload_iff_admits hgiven hlength fun _ _ => char.inj
    | varchar length => exact map_payload_iff_admits hgiven hlength fun _ _ => varchar.inj
    | varbinary length => exact map_payload_iff_admits hgiven hlength fun _ _ => varbinary.inj
    | array element => exact map_payload_iff_admits hgiven h.iff fun _ _ => array.inj
    | custom name => exact map_payload_iff_admits hgiven reads_string.iff fun _ _ => custom.inj
    | _ => exact bare_iff_admits

theorem reads : DataType.decode.Reads n DataType.forms :=
  reads_fix nofun fun _ _ _ => reads_step

end DataType

/-! ## Clauses -/

section Clauses

variable {expr : Decoder ε} {forms : ε → Forms}

theorem Arguments.reads (h : expr.Reads n forms) :
    (Arguments.decode expr).Reads n fun arguments => Arguments.forms (arguments.map forms) := by
  refine Reads.record (fun arguments : List ε => slots (arguments.map forms)) (fun _ => rfl)
    (by decide) ?_
  intro given hgiven arguments
  simp [slots, required_eq_some_iff hgiven h.list]

theorem OrderKey.reads (h : expr.Reads n forms) :
    (OrderKey.decode expr).Reads n fun key => (key.map forms).forms := by
  refine Reads.record (fun key : OrderKey ε => (key.map forms).slots) (fun _ => rfl) (by decide) ?_
  rintro given hgiven ⟨e, direction, nulls⟩
  simp [slots, map, Option.bind_eq_some_iff, required_eq_some_iff hgiven h,
    optional_eq_some_iff hgiven Direction.reads, optional_eq_some_iff hgiven NullPlacement.reads]

theorem Keep.reads (h : expr.Reads n forms) :
    (Keep.decode expr).Reads n fun keep => (keep.map forms).forms := by
  refine Reads.record (fun keep : Keep ε => (keep.map forms).slots) (fun _ => rfl) (by decide) ?_
  rintro given hgiven ⟨name, first, orderBy⟩
  simp [slots, map, Option.bind_eq_some_iff, required_eq_some_iff hgiven reads_string,
    required_eq_some_iff hgiven reads_bool, required_eq_some_iff hgiven (OrderKey.reads h).list,
    Function.comp_def, -Bool.exists_bool]

theorem FrameBound.reads (h : expr.Reads n forms) :
    (FrameBound.decode expr).Reads n fun bound => (bound.map forms).forms := by
  refine Reads.of_succ (Reads.tagged (fun tag given bound hread => ?_) fun given hgiven bound => ?_)
  · split at hread
    all_goals simp only [bare_eq_some_iff, Option.map_eq_some_iff, reduceCtorEq] at hread
    all_goals
      casesm* _ ∧ _, ∃ _, _
      subst bound
      rfl
  · cases bound with
    | preceding offset => exact map_payload_iff_admits hgiven h.iff fun _ _ => preceding.inj
    | following offset => exact map_payload_iff_admits hgiven h.iff fun _ _ => following.inj
    | _ => exact bare_iff_admits

theorem FrameExtent.reads (h : expr.Reads n forms) :
    (FrameExtent.decode expr).Reads n fun extent => (extent.map forms).forms := by
  refine Reads.of_succ
    (Reads.tagged (fun tag given extent hread => ?_) fun given hgiven extent => ?_)
  · split at hread
    all_goals
      simp only [decodeBetween, Option.map_eq_some_iff, payload_fields_eq_some_iff,
        Option.bind_eq_bind, Option.bind_eq_some_iff, Option.pure_def, Option.some.injEq,
        reduceCtorEq] at hread
    all_goals
      casesm* _ ∧ _, ∃ _, _
      subst extent
      rfl
  · cases extent with
    | single bound =>
      exact map_payload_iff_admits hgiven (FrameBound.reads h).iff fun _ _ => single.inj
    | between start stop =>
      refine payload_fields_iff_admits hgiven fun given hgiven => ?_
      simp [Option.bind_eq_some_iff, required_eq_some_iff hgiven (FrameBound.reads h)]

theorem Frame.reads (h : expr.Reads n forms) :
    (Frame.decode expr).Reads n fun frame => (frame.map forms).forms := by
  refine Reads.record (fun frame : Frame ε => (frame.map forms).slots) (fun _ => rfl) (by decide) ?_
  rintro given hgiven ⟨unit, extent⟩
  simp [slots, map, Option.bind_eq_some_iff, required_eq_some_iff hgiven FrameUnit.reads,
    required_eq_some_iff hgiven (FrameExtent.reads h)]

theorem When.reads (h : expr.Reads n forms) :
    (When.decode expr).Reads n fun branch => (branch.map forms).forms := by
  refine Reads.record (fun branch : When ε => (branch.map forms).slots) (fun _ => rfl)
    (by decide) ?_
  rintro given hgiven ⟨condition, result⟩
  simp [slots, map, Option.bind_eq_some_iff, required_eq_some_iff hgiven h]

theorem Case.reads (h : expr.Reads n forms) :
    (Case.decode expr).Reads n fun c => (c.map forms).forms := by
  refine Reads.record (fun c : Case ε => (c.map forms).slots) (fun _ => rfl) (by decide) ?_
  rintro given hgiven ⟨operand, branches, otherwise⟩
  simp [slots, map, Option.bind_eq_some_iff, optional_eq_some_iff hgiven h,
    required_eq_some_iff hgiven (When.reads h).list, Function.comp_def]

theorem Call.reads (h : expr.Reads n forms) :
    (Call.decode expr).Reads n fun call => (call.map forms).forms := by
  refine Reads.record (fun call : Call ε => (call.map forms).slots) (fun _ => rfl) (by decide) ?_
  rintro given hgiven ⟨name, arguments, quantifier, allColumns, escaped, field, keep⟩
  simp [slots, map, Option.bind_eq_some_iff, required_eq_some_iff hgiven reads_string,
    required_eq_some_iff hgiven reads_bool, optional_eq_some_iff hgiven reads_string,
    optional_eq_some_iff hgiven (Arguments.reads h),
    optional_eq_some_iff hgiven SetQuantifier.reads, optional_eq_some_iff hgiven (Keep.reads h),
    Function.comp_def, -Bool.exists_bool]

theorem Analytic.reads (h : expr.Reads n forms) :
    (Analytic.decode expr).Reads n fun a => (a.map forms).forms := by
  refine Reads.record (fun a : Analytic ε => (a.map forms).slots) (fun _ => rfl) (by decide) ?_
  rintro given hgiven ⟨name, kind, argument, offset, defaultValue, allColumns, distinct,
    ignoreNulls, keep, partitionBy, orderBy, frame⟩
  simp [slots, map, Option.bind_eq_some_iff, required_eq_some_iff hgiven reads_string,
    required_eq_some_iff hgiven reads_bool, required_eq_some_iff hgiven AnalyticKind.reads,
    optional_eq_some_iff hgiven h, optional_eq_some_iff hgiven (Keep.reads h),
    required_eq_some_iff hgiven h.list, required_eq_some_iff hgiven (OrderKey.reads h).list,
    optional_eq_some_iff hgiven (Frame.reads h), Function.comp_def, -Bool.exists_bool]

theorem GroupConcat.reads (h : expr.Reads n forms) :
    (GroupConcat.decode expr).Reads n fun g => (g.map forms).forms := by
  refine Reads.record (fun g : GroupConcat ε => (g.map forms).slots) (fun _ => rfl) (by decide) ?_
  rintro given hgiven ⟨distinct, arguments, orderBy, separator⟩
  simp [slots, map, Option.bind_eq_some_iff, required_eq_some_iff hgiven reads_bool,
    required_eq_some_iff hgiven (Arguments.reads h),
    required_eq_some_iff hgiven (OrderKey.reads h).list, optional_eq_some_iff hgiven reads_string,
    Function.comp_def, -Bool.exists_bool]

/-! ## Queries -/

theorem SelectItem.reads (h : expr.Reads n forms) :
    (SelectItem.decode expr).Reads n fun item => (item.map forms).forms := by
  refine Reads.of_succ (Reads.tagged (fun tag given item hread => ?_) fun given hgiven item => ?_)
  · split at hread
    all_goals
      simp only [decodeExpr, bare_eq_some_iff, Option.map_eq_some_iff, payload_fields_eq_some_iff,
        Option.bind_eq_bind, Option.bind_eq_some_iff, Option.pure_def, Option.some.injEq,
        reduceCtorEq] at hread
    all_goals
      casesm* _ ∧ _, ∃ _, _
      subst item
      rfl
  · cases item with
    | allColumns => exact bare_iff_admits
    | tableColumns table =>
      exact map_payload_iff_admits hgiven Table.reads.iff fun _ _ => tableColumns.inj
    | expr e label =>
      refine payload_fields_iff_admits hgiven fun given hgiven => ?_
      simp [Option.bind_eq_some_iff, required_eq_some_iff hgiven h,
        optional_eq_some_iff hgiven Alias.reads]

theorem Select.reads (h : expr.Reads n forms) :
    (Select.decode expr).Reads n fun select => (select.map forms).forms := by
  refine Reads.record (fun select : Select ε => (select.map forms).slots) (fun _ => rfl)
    (by decide) ?_
  rintro given hgiven ⟨distinct, items, source, condition, groupBy, having, orderBy, limit⟩
  simp [slots, map, Option.bind_eq_some_iff, required_eq_some_iff hgiven reads_bool,
    required_eq_some_iff hgiven (SelectItem.reads h).list,
    optional_eq_some_iff hgiven Table.reads, optional_eq_some_iff hgiven h,
    required_eq_some_iff hgiven h.list, required_eq_some_iff hgiven (OrderKey.reads h).list,
    Function.comp_def, -Bool.exists_bool]

namespace Query

/-- A query is read one level deeper than the queries that it combines. -/
theorem reads_step (h : expr.Reads n forms) {self : Decoder (Query ε)}
    (hself : self.Reads n fun query => (query.map forms).forms) :
    (decodeStep expr self).Reads (n + 1) fun query => (query.map forms).forms := by
  refine Reads.tagged (fun tag given query hread => ?_) fun given hgiven query => ?_
  · split at hread
    all_goals
      simp only [decodeCompound, Option.map_eq_some_iff, payload_fields_eq_some_iff,
        Option.bind_eq_bind, Option.bind_eq_some_iff, Option.pure_def, Option.some.injEq,
        reduceCtorEq] at hread
    all_goals
      casesm* _ ∧ _, ∃ _, _
      subst query
      rfl
  · cases query with
    | plain select =>
      exact map_payload_iff_admits hgiven (Select.reads h).iff fun _ _ => plain.inj
    | compound op all left right =>
      refine payload_fields_iff_admits hgiven fun given hgiven => ?_
      simp [Option.bind_eq_some_iff, required_eq_some_iff hgiven SetOp.reads,
        required_eq_some_iff hgiven reads_bool, required_eq_some_iff hgiven hself, Query.forms,
        -Bool.exists_bool]

theorem reads (h : expr.Reads n forms) :
    (Query.decode expr).Reads n fun query => (query.map forms).forms :=
  reads_fix nofun fun _ hm _ => reads_step (h.mono (Nat.le_of_lt hm))

end Query

theorem CommonTable.reads (h : expr.Reads n forms) :
    (CommonTable.decode expr).Reads n fun table => (table.map forms).forms := by
  refine Reads.record (fun table : CommonTable ε => (table.map forms).slots) (fun _ => rfl)
    (by decide) ?_
  rintro given hgiven ⟨name, columns, query⟩
  simp [slots, map, Option.bind_eq_some_iff, required_eq_some_iff hgiven reads_string,
    required_eq_some_iff hgiven reads_string.list, required_eq_some_iff hgiven (Query.reads h)]

theorem SubQuery.reads (h : expr.Reads n forms) :
    (SubQuery.decode expr).Reads n fun sub => (sub.map forms).forms := by
  refine Reads.record (fun sub : SubQuery ε => (sub.map forms).slots) (fun _ => rfl) (by decide) ?_
  rintro given hgiven ⟨query, commonTables, brackets⟩
  simp [slots, map, Option.bind_eq_some_iff, required_eq_some_iff hgiven (Query.reads h),
    required_eq_some_iff hgiven (CommonTable.reads h).list, required_eq_some_iff hgiven reads_bool,
    Function.comp_def, -Bool.exists_bool]

theorem Items.reads (h : expr.Reads n forms) :
    (Items.decode expr).Reads n fun items => (items.map forms).forms := by
  refine Reads.of_succ (Reads.tagged (fun tag given items hread => ?_) fun given hgiven items => ?_)
  · split at hread
    all_goals simp only [Option.map_eq_some_iff, reduceCtorEq] at hread
    all_goals
      casesm* _ ∧ _, ∃ _, _
      subst items
      rfl
  · cases items with
    | list values => exact map_payload_iff_admits hgiven (Arguments.reads h).iff fun _ _ => list.inj
    | rows lists =>
      have hforms : (lists.map (List.map forms)).map Arguments.forms =
          lists.map fun values => Arguments.forms (values.map forms) :=
        List.map_map
      rw [Items.map, Items.variant, hforms]
      exact map_payload_iff_admits hgiven (Arguments.reads h).list.iff fun _ _ => rows.inj
    | query sub => exact map_payload_iff_admits hgiven (SubQuery.reads h).iff fun _ _ => query.inj

theorem Member.reads (h : expr.Reads n forms) :
    (Member.decode expr).Reads n fun member => (member.map forms).forms := by
  refine Reads.of_succ
    (Reads.tagged (fun tag given member hread => ?_) fun given hgiven member => ?_)
  · split at hread
    all_goals simp only [Option.map_eq_some_iff, reduceCtorEq] at hread
    all_goals
      casesm* _ ∧ _, ∃ _, _
      subst member
      rfl
  · cases member with
    | expr e => exact map_payload_iff_admits hgiven h.iff fun _ _ => Member.expr.inj
    | items is => exact map_payload_iff_admits hgiven (Items.reads h).iff fun _ _ => items.inj

/-! ## Expressions -/

theorem Node.reads (h : expr.Reads n forms) :
    (Node.decode expr).Reads (n + 1) fun node => (node.map forms).forms := by
  refine Reads.tagged (fun tag given node hread => ?_) fun given hgiven node => ?_
  · split at hread
    all_goals
      simp only [decodeBinary, decodeComparison, decodeLike, decodeBetween, decodeMembership,
        decodeIsNull, decodeExistence, decodeSigned, decodeBrackets, decodeCast, decodeExtract,
        decodeInterval, decodeRow, decodeDocument, decodeSessionVariable, decodeAnyOf,
        decodeHierarchical, Option.map_eq_some_iff, payload_fields_eq_some_iff,
        Option.bind_eq_bind, Option.bind_eq_some_iff, Option.pure_def, Option.some.injEq,
        reduceCtorEq] at hread
    all_goals
      casesm* _ ∧ _, ∃ _, _
      subst node
      rfl
  · cases node with
    | binary left op right negated =>
      refine payload_fields_iff_admits hgiven fun given hgiven => ?_
      simp [Option.bind_eq_some_iff, required_eq_some_iff hgiven h,
        required_eq_some_iff hgiven BinaryOp.reads, required_eq_some_iff hgiven reads_bool,
        -Bool.exists_bool]
    | comparison left op right negated join =>
      refine payload_fields_iff_admits hgiven fun given hgiven => ?_
      simp [Option.bind_eq_some_iff, required_eq_some_iff hgiven h,
        required_eq_some_iff hgiven ComparisonOp.reads, required_eq_some_iff hgiven reads_bool,
        required_eq_some_iff hgiven OuterJoin.reads, -Bool.exists_bool]
    | like left right negated ignoreCase escape =>
      refine payload_fields_iff_admits hgiven fun given hgiven => ?_
      simp [Option.bind_eq_some_iff, required_eq_some_iff hgiven h,
        required_eq_some_iff hgiven reads_bool, optional_eq_some_iff hgiven reads_string,
        -Bool.exists_bool]
    | between e start stop negated =>
      refine payload_fields_iff_admits hgiven fun given hgiven => ?_
      simp [Option.bind_eq_some_iff, required_eq_some_iff hgiven h,
        required_eq_some_iff hgiven reads_bool, -Bool.exists_bool]
    | membership member items negated join =>
      refine payload_fields_iff_admits hgiven fun given hgiven => ?_
      simp [Option.bind_eq_some_iff, required_eq_some_iff hgiven (Member.reads h),
        required_eq_some_iff hgiven (Items.reads h), required_eq_some_iff hgiven reads_bool,
        required_eq_some_iff hgiven OuterJoin.reads, -Bool.exists_bool]
    | isNull e negated oneWord =>
      refine payload_fields_iff_admits hgiven fun given hgiven => ?_
      simp [Option.bind_eq_some_iff, required_eq_some_iff hgiven h,
        required_eq_some_iff hgiven reads_bool, -Bool.exists_bool]
    | existence e negated =>
      refine payload_fields_iff_admits hgiven fun given hgiven => ?_
      simp [Option.bind_eq_some_iff, required_eq_some_iff hgiven h,
        required_eq_some_iff hgiven reads_bool, -Bool.exists_bool]
    | not e => exact map_payload_iff_admits hgiven h.iff fun _ _ => not.inj
    | signed sign e =>
      refine payload_fields_iff_admits hgiven fun given hgiven => ?_
      simp [Option.bind_eq_some_iff, required_eq_some_iff hgiven h,
        required_eq_some_iff hgiven Sign.reads]
    | brackets e negated =>
      refine payload_fields_iff_admits hgiven fun given hgiven => ?_
      simp [Option.bind_eq_some_iff, required_eq_some_iff hgiven h,
        required_eq_some_iff hgiven reads_bool, -Bool.exists_bool]
    | case c => exact map_payload_iff_admits hgiven (Case.reads h).iff fun _ _ => case.inj
    | call c => exact map_payload_iff_admits hgiven (Call.reads h).iff fun _ _ => call.inj
    | analytic a =>
      exact map_payload_iff_admits hgiven (Analytic.reads h).iff fun _ _ => analytic.inj
    | groupConcat g =>
      exact map_payload_iff_admits hgiven (GroupConcat.reads h).iff fun _ _ => groupConcat.inj
    | cast e type keyword =>
      refine payload_fields_iff_admits hgiven fun given hgiven => ?_
      simp [Option.bind_eq_some_iff, required_eq_some_iff hgiven h,
        required_eq_some_iff hgiven DataType.reads, required_eq_some_iff hgiven reads_bool,
        -Bool.exists_bool]
    | extract field e =>
      refine payload_fields_iff_admits hgiven fun given hgiven => ?_
      simp [Option.bind_eq_some_iff, required_eq_some_iff hgiven h,
        required_eq_some_iff hgiven reads_string]
    | interval amount unit =>
      refine payload_fields_iff_admits hgiven fun given hgiven => ?_
      simp [Option.bind_eq_some_iff, required_eq_some_iff hgiven reads_string,
        optional_eq_some_iff hgiven reads_string]
    | row name elements =>
      refine payload_fields_iff_admits hgiven fun given hgiven => ?_
      simp [Option.bind_eq_some_iff, optional_eq_some_iff hgiven reads_string,
        required_eq_some_iff hgiven h.list]
    | values elements =>
      exact map_payload_iff_admits hgiven (Arguments.reads h).iff fun _ _ => values.inj
    | column c => exact map_payload_iff_admits hgiven Column.reads.iff fun _ _ => column.inj
    | document c path =>
      refine payload_fields_iff_admits hgiven fun given hgiven => ?_
      simp [Option.bind_eq_some_iff, required_eq_some_iff hgiven Column.reads,
        required_eq_some_iff hgiven PathStep.reads.list]
    | literal l => exact map_payload_iff_admits hgiven Literal.reads.iff fun _ _ => literal.inj
    | parameter p =>
      exact map_payload_iff_admits hgiven Parameter.reads.iff fun _ _ => parameter.inj
    | sessionVariable name system =>
      refine payload_fields_iff_admits hgiven fun given hgiven => ?_
      simp [Option.bind_eq_some_iff, required_eq_some_iff hgiven reads_string,
        required_eq_some_iff hgiven reads_bool, -Bool.exists_bool]
    | timeKey word => exact map_payload_iff_admits hgiven reads_string.iff fun _ _ => timeKey.inj
    | subQuery query =>
      exact map_payload_iff_admits hgiven (SubQuery.reads h).iff fun _ _ => subQuery.inj
    | allOf query => exact map_payload_iff_admits hgiven (SubQuery.reads h).iff fun _ _ => allOf.inj
    | anyOf word query =>
      refine payload_fields_iff_admits hgiven fun given hgiven => ?_
      simp [Option.bind_eq_some_iff, required_eq_some_iff hgiven AnyWord.reads,
        required_eq_some_iff hgiven (SubQuery.reads h)]
    | hierarchical start connect noCycle =>
      refine payload_fields_iff_admits hgiven fun given hgiven => ?_
      simp [Option.bind_eq_some_iff, optional_eq_some_iff hgiven h, required_eq_some_iff hgiven h,
        required_eq_some_iff hgiven reads_bool, -Bool.exists_bool]
    | hint x => exact map_payload_iff_admits hgiven Hint.reads.iff fun _ _ => hint.inj

end Clauses

namespace Expr

/-- An expression is read one level deeper than its sub-expressions. -/
theorem reads_step {self : Decoder Expr} (h : self.Reads n forms) :
    (decodeStep self).Reads (n + 1) forms := by
  have hnode := Node.reads h
  refine ⟨fun j hj e => ?_, ?_⟩
  · obtain ⟨node⟩ := e
    rw [forms_node, ← hnode.iff j hj node, decodeStep, Option.map_eq_some_iff]
    constructor
    · rintro ⟨_, hread, ⟨⟩⟩
      exact hread
    · intro hread
      exact ⟨node, hread, rfl⟩
  · rintro ⟨node⟩
    rw [forms_node]
    exact hnode.not_null node

theorem reads : ofJson?.Reads n forms :=
  reads_fix (fun | .node _ => (forms_node _ ▸ nofun)) fun _ _ _ => reads_step

end Expr

end SqlText
