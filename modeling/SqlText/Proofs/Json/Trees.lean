import SqlText.Proofs.Json.Decoding
import SqlText.Proofs.Json.Writing
import SqlText.Session

/-!
# Exchange of trees

Every type of tree comes with a way to write and to read it and with the forms that are read
(`Codec`). Reading accepts the forms of each tree and nothing else, so every JSON value is read as
at most one tree; writing gives one of the forms. It follows that a tree can be stored and read
again, and that no session can tell the reloaded tree from the stored one.
-/

namespace SqlText

/-- How values are exchanged : what is read are their forms, and what is written is one of them. -/
structure Codec (α : Type) where
  encode : α → Json
  decode : Decoder α
  forms : α → Forms
  reads : ∀ {n : Nat}, decode.Reads n forms
  forms_encode : ∀ a, forms a (encode a)

namespace Codec

variable {α : Type} (codec : Codec α)

theorem decode_eq_some_iff (j : Json) (a : α) : codec.decode j = some a ↔ codec.forms a j :=
  codec.reads.iff j (Nat.lt_succ_self j.depth) a

/-- What no value has as a form is refused. -/
theorem decode_eq_none_iff (j : Json) : codec.decode j = none ↔ ∀ a, ¬ codec.forms a j := by
  rw [Option.eq_none_iff_forall_ne_some]
  exact forall_congr' fun a => not_congr (codec.decode_eq_some_iff j a)

/-- Different values share no form. -/
theorem eq_of_forms {j : Json} {a b : α} (ha : codec.forms a j) (hb : codec.forms b j) : a = b := by
  have hread := (codec.decode_eq_some_iff j a).2 ha
  rw [(codec.decode_eq_some_iff j b).2 hb] at hread
  exact (Option.some.inj hread).symm

/-- What was written is read back. -/
theorem decode_encode (a : α) : codec.decode (codec.encode a) = some a :=
  (codec.decode_eq_some_iff _ a).2 (codec.forms_encode a)

end Codec

/-- The types of trees. -/
inductive TreeType where
  | label | table | column | quotedText | literal | dateTimeWord | parameter | pathStep | hint
  | dataType | patternOp | regexpWord | documentOp | binaryOp | inequalitySign | comparisonOp
  | outerJoin | sign | anyWord | setQuantifier | analyticKind | frameUnit | direction
  | nullPlacement | setOp | arguments | items | member | when | case | keep | call | frameBound
  | frameExtent | frame | analytic | groupConcat | orderKey | selectItem | select | query
  | commonTable | subQuery | expr

namespace TreeType

/-- The trees of a type. -/
def Tree : TreeType → Type
  | label => Alias
  | table => Table
  | column => Column
  | quotedText => QuotedText
  | literal => Literal
  | dateTimeWord => DateTimeWord
  | parameter => Parameter
  | pathStep => PathStep
  | hint => Hint
  | dataType => DataType
  | patternOp => PatternOp
  | regexpWord => RegexpWord
  | documentOp => DocumentOp
  | binaryOp => BinaryOp
  | inequalitySign => InequalitySign
  | comparisonOp => ComparisonOp
  | outerJoin => OuterJoin
  | sign => Sign
  | anyWord => AnyWord
  | setQuantifier => SetQuantifier
  | analyticKind => AnalyticKind
  | frameUnit => FrameUnit
  | direction => Direction
  | nullPlacement => NullPlacement
  | setOp => SetOp
  | arguments => List Expr
  | items => Items Expr
  | member => Member Expr
  | when => When Expr
  | case => Case Expr
  | keep => Keep Expr
  | call => Call Expr
  | frameBound => FrameBound Expr
  | frameExtent => FrameExtent Expr
  | frame => Frame Expr
  | analytic => Analytic Expr
  | groupConcat => GroupConcat Expr
  | orderKey => OrderKey Expr
  | selectItem => SelectItem Expr
  | select => Select Expr
  | query => Query Expr
  | commonTable => CommonTable Expr
  | subQuery => SubQuery Expr
  | expr => Expr

/-- How the trees of a type are exchanged. -/
def codec : (type : TreeType) → Codec type.Tree
  | label => ⟨Alias.encode, Alias.decode, Alias.forms, Alias.reads, Alias.forms_encode⟩
  | table => ⟨Table.encode, Table.decode, Table.forms, Table.reads, Table.forms_encode⟩
  | column => ⟨Column.encode, Column.decode, Column.forms, Column.reads, Column.forms_encode⟩
  | quotedText =>
    ⟨QuotedText.encode, QuotedText.decode, QuotedText.forms, QuotedText.reads,
      QuotedText.forms_encode⟩
  | literal => ⟨Literal.encode, Literal.decode, Literal.forms, Literal.reads, Literal.forms_encode⟩
  | dateTimeWord =>
    ⟨DateTimeWord.encode, DateTimeWord.decode, DateTimeWord.forms, DateTimeWord.reads,
      DateTimeWord.forms_encode⟩
  | parameter =>
    ⟨Parameter.encode, Parameter.decode, Parameter.forms, Parameter.reads, Parameter.forms_encode⟩
  | pathStep =>
    ⟨PathStep.encode, PathStep.decode, PathStep.forms, PathStep.reads, PathStep.forms_encode⟩
  | hint => ⟨Hint.encode, Hint.decode, Hint.forms, Hint.reads, Hint.forms_encode⟩
  | dataType =>
    ⟨DataType.encode, DataType.decode, DataType.forms, DataType.reads, DataType.forms_encode⟩
  | patternOp =>
    ⟨PatternOp.encode, PatternOp.decode, PatternOp.forms, PatternOp.reads, PatternOp.forms_encode⟩
  | regexpWord =>
    ⟨RegexpWord.encode, RegexpWord.decode, RegexpWord.forms, RegexpWord.reads,
      RegexpWord.forms_encode⟩
  | documentOp =>
    ⟨DocumentOp.encode, DocumentOp.decode, DocumentOp.forms, DocumentOp.reads,
      DocumentOp.forms_encode⟩
  | binaryOp =>
    ⟨BinaryOp.encode, BinaryOp.decode, BinaryOp.forms, BinaryOp.reads, BinaryOp.forms_encode⟩
  | inequalitySign =>
    ⟨InequalitySign.encode, InequalitySign.decode, InequalitySign.forms, InequalitySign.reads,
      InequalitySign.forms_encode⟩
  | comparisonOp =>
    ⟨ComparisonOp.encode, ComparisonOp.decode, ComparisonOp.forms, ComparisonOp.reads,
      ComparisonOp.forms_encode⟩
  | outerJoin =>
    ⟨OuterJoin.encode, OuterJoin.decode, OuterJoin.forms, OuterJoin.reads, OuterJoin.forms_encode⟩
  | sign => ⟨Sign.encode, Sign.decode, Sign.forms, Sign.reads, Sign.forms_encode⟩
  | anyWord => ⟨AnyWord.encode, AnyWord.decode, AnyWord.forms, AnyWord.reads, AnyWord.forms_encode⟩
  | setQuantifier =>
    ⟨SetQuantifier.encode, SetQuantifier.decode, SetQuantifier.forms, SetQuantifier.reads,
      SetQuantifier.forms_encode⟩
  | analyticKind =>
    ⟨AnalyticKind.encode, AnalyticKind.decode, AnalyticKind.forms, AnalyticKind.reads,
      AnalyticKind.forms_encode⟩
  | frameUnit =>
    ⟨FrameUnit.encode, FrameUnit.decode, FrameUnit.forms, FrameUnit.reads, FrameUnit.forms_encode⟩
  | direction =>
    ⟨Direction.encode, Direction.decode, Direction.forms, Direction.reads, Direction.forms_encode⟩
  | nullPlacement =>
    ⟨NullPlacement.encode, NullPlacement.decode, NullPlacement.forms, NullPlacement.reads,
      NullPlacement.forms_encode⟩
  | setOp => ⟨SetOp.encode, SetOp.decode, SetOp.forms, SetOp.reads, SetOp.forms_encode⟩
  | arguments =>
    ⟨Arguments.toJson, Arguments.ofJson?, fun t => Arguments.forms (t.map Expr.forms),
      Arguments.reads Expr.reads, Arguments.forms_encode Expr.forms_toJson⟩
  | items =>
    ⟨Items.toJson, Items.ofJson?, fun t => (t.map Expr.forms).forms, Items.reads Expr.reads,
      Items.forms_encode Expr.forms_toJson⟩
  | member =>
    ⟨Member.toJson, Member.ofJson?, fun t => (t.map Expr.forms).forms, Member.reads Expr.reads,
      Member.forms_encode Expr.forms_toJson⟩
  | when =>
    ⟨When.toJson, When.ofJson?, fun t => (t.map Expr.forms).forms, When.reads Expr.reads,
      When.forms_encode Expr.forms_toJson⟩
  | case =>
    ⟨Case.toJson, Case.ofJson?, fun t => (t.map Expr.forms).forms, Case.reads Expr.reads,
      Case.forms_encode Expr.forms_toJson⟩
  | keep =>
    ⟨Keep.toJson, Keep.ofJson?, fun t => (t.map Expr.forms).forms, Keep.reads Expr.reads,
      Keep.forms_encode Expr.forms_toJson⟩
  | call =>
    ⟨Call.toJson, Call.ofJson?, fun t => (t.map Expr.forms).forms, Call.reads Expr.reads,
      Call.forms_encode Expr.forms_toJson⟩
  | frameBound =>
    ⟨FrameBound.toJson, FrameBound.ofJson?, fun t => (t.map Expr.forms).forms,
      FrameBound.reads Expr.reads, FrameBound.forms_encode Expr.forms_toJson⟩
  | frameExtent =>
    ⟨FrameExtent.toJson, FrameExtent.ofJson?, fun t => (t.map Expr.forms).forms,
      FrameExtent.reads Expr.reads, FrameExtent.forms_encode Expr.forms_toJson⟩
  | frame =>
    ⟨Frame.toJson, Frame.ofJson?, fun t => (t.map Expr.forms).forms, Frame.reads Expr.reads,
      Frame.forms_encode Expr.forms_toJson⟩
  | analytic =>
    ⟨Analytic.toJson, Analytic.ofJson?, fun t => (t.map Expr.forms).forms,
      Analytic.reads Expr.reads, Analytic.forms_encode Expr.forms_toJson⟩
  | groupConcat =>
    ⟨GroupConcat.toJson, GroupConcat.ofJson?, fun t => (t.map Expr.forms).forms,
      GroupConcat.reads Expr.reads, GroupConcat.forms_encode Expr.forms_toJson⟩
  | orderKey =>
    ⟨OrderKey.toJson, OrderKey.ofJson?, fun t => (t.map Expr.forms).forms,
      OrderKey.reads Expr.reads, OrderKey.forms_encode Expr.forms_toJson⟩
  | selectItem =>
    ⟨SelectItem.toJson, SelectItem.ofJson?, fun t => (t.map Expr.forms).forms,
      SelectItem.reads Expr.reads, SelectItem.forms_encode Expr.forms_toJson⟩
  | select =>
    ⟨Select.toJson, Select.ofJson?, fun t => (t.map Expr.forms).forms, Select.reads Expr.reads,
      Select.forms_encode Expr.forms_toJson⟩
  | query =>
    ⟨Query.toJson, Query.ofJson?, fun t => (t.map Expr.forms).forms, Query.reads Expr.reads,
      Query.forms_encode Expr.forms_toJson⟩
  | commonTable =>
    ⟨CommonTable.toJson, CommonTable.ofJson?, fun t => (t.map Expr.forms).forms,
      CommonTable.reads Expr.reads, CommonTable.forms_encode Expr.forms_toJson⟩
  | subQuery =>
    ⟨SubQuery.toJson, SubQuery.ofJson?, fun t => (t.map Expr.forms).forms,
      SubQuery.reads Expr.reads, SubQuery.forms_encode Expr.forms_toJson⟩
  | expr => ⟨Expr.toJson, Expr.ofJson?, Expr.forms, Expr.reads, Expr.forms_toJson⟩

/-- A JSON value is read as a tree if it is one of the tree's forms. All other values are refused,
and no value is a form of two trees. -/
theorem decode_forms (type : TreeType) (j : Json) :
    (∀ t, type.codec.decode j = some t ↔ type.codec.forms t j) ∧
      (type.codec.decode j = none ↔ ∀ t, ¬ type.codec.forms t j) ∧
        ∀ t u, type.codec.forms t j → type.codec.forms u j → t = u :=
  ⟨type.codec.decode_eq_some_iff j, type.codec.decode_eq_none_iff j,
    fun _ _ => type.codec.eq_of_forms⟩

end TreeType

/-! ## Reloading -/

/-- A fragment whose tree is written and read again. -/
def Fragment.reload : Fragment → Option Fragment
  | expr e => (Expr.ofJson? e.toJson).map expr
  | items is => (Items.ofJson? is.toJson).map items
  | list arguments brackets =>
    (Arguments.ofJson? (Arguments.toJson arguments)).map fun es => list es brackets
  | orderKey key => (OrderKey.ofJson? key.toJson).map orderKey
  | query q => (Query.ofJson? q.toJson).map query
  | commonTable table => (CommonTable.ofJson? table.toJson).map commonTable

/-- A command whose tree, if it has one, is written and read again. -/
def Command.reload : Command → Option Command
  | render fragment => fragment.reload.map render
  | renderToText e => (Expr.ofJson? e.toJson).map renderToText
  | command => some command

theorem Fragment.reload_eq (fragment : Fragment) : fragment.reload = some fragment := by
  cases fragment with
  | expr e => exact congrArg (Option.map expr) (TreeType.expr.codec.decode_encode e)
  | items is => exact congrArg (Option.map items) (TreeType.items.codec.decode_encode is)
  | list arguments brackets =>
    exact congrArg (Option.map fun es => list es brackets)
      (TreeType.arguments.codec.decode_encode arguments)
  | orderKey key => exact congrArg (Option.map orderKey) (TreeType.orderKey.codec.decode_encode key)
  | query q => exact congrArg (Option.map query) (TreeType.query.codec.decode_encode q)
  | commonTable table =>
    exact congrArg (Option.map commonTable) (TreeType.commonTable.codec.decode_encode table)

theorem Command.reload_eq (command : Command) : command.reload = some command := by
  cases command with
  | render fragment => rw [reload, fragment.reload_eq, Option.map_some]
  | renderToText e =>
    exact congrArg (Option.map renderToText) (TreeType.expr.codec.decode_encode e)
  | _ => rfl

/-- Every tree is read back from what is written for it. A session that renders the reloaded tree,
with whatever renderer and budget, writes the same text, reports the same calls and events, and
fails in the same way. -/
theorem TreeType.reloaded_alike :
    (∀ (type : TreeType) (t : type.Tree), type.codec.decode (type.codec.encode t) = some t) ∧
      ∀ (s : Session) (command : Command), command.reload.map s.step = some (s.step command) := by
  refine ⟨fun type t => type.codec.decode_encode t, fun s command => ?_⟩
  rw [command.reload_eq, Option.map_some]

end SqlText
