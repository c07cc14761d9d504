import SqlText.Proofs.Render.Kinds
import SqlText.Proofs.Text.Contexts

/-!
# The text of a value in its place

A value that has a text of its own is written as part of others : a keep clause in a call, a common
table in a sub-query, a key in an ordering. An `Opening` is a value with one place left open for a
part; a `Way` leads through such places to any depth. All places are listed at which parts are
written, and only those.

Wherever a way leads, the text of the part stands in the text of the whole as it is, between two
texts that do not depend on the part (`Way.shows`). So the text that a value has on its own is the
text that is written for it everywhere (`Kind.canonical_text`).

There are two forms besides, each of a kind of its own. A list gives up its brackets where it shares
those of a call with a quantifier, or those of a concatenation; and a table that only qualifies the
name of a column is written by its alias. In these places the text that the list or the table has on
its own need not occur (`Kind.not_verbatim`).
-/

namespace SqlText

variable {α δ : Type}

/-! ## Texts that show a part -/

/-- A text that holds the text of a part, at a place and among words that do not depend on the
part. -/
def Shows (part whole : α → String) : Prop :=
  ∃ u v, ∀ a, whole a = u ++ part a ++ v

namespace Shows

variable {part whole : α → String}

theorem itself (part : α → String) : Shows part part :=
  ⟨"", "", fun a => by rw [String.empty_append, String.append_empty]⟩

/-- Words in front of the whole. -/
theorem before (w : String) (h : Shows part whole) : Shows part fun a => w ++ whole a := by
  obtain ⟨u, v, hwhole⟩ := h
  refine ⟨w ++ u, v, fun a => ?_⟩
  simp only [hwhole, String.append_assoc]

/-- Words behind the whole. -/
theorem behind (h : Shows part whole) (w : String) : Shows part fun a => whole a ++ w := by
  obtain ⟨u, v, hwhole⟩ := h
  refine ⟨u, v ++ w, fun a => ?_⟩
  simp only [hwhole, String.append_assoc]

/-- A part of a part is a part of the whole. -/
theorem trans {inner : δ → String} {fill : δ → α} (h : Shows inner fun d => part (fill d))
    (hpart : Shows part whole) : Shows inner fun d => whole (fill d) := by
  obtain ⟨u, v, hinner⟩ := h
  obtain ⟨u', v', hwhole⟩ := hpart
  refine ⟨u' ++ u, v ++ v', fun d => ?_⟩
  simp only [hwhole, hinner, String.append_assoc]

/-- A member of a list that is written with commas between its members. -/
theorem member (text : α → String) (first second : List α) :
    Shows text fun a => Text.commaSeparated ((first ++ a :: second).map text) := by
  -- Only the ends of the list matter : no comma stands before its first member or behind its last.
  have hrest : Shows text fun a => Text.commaSeparated ((a :: second).map text) := by
    cases second with
    | nil => exact itself text
    | cons next rest =>
      simp only [Text.commaSeparated, List.map_cons, String.intercalate_cons_cons,
        String.append_assoc]
      exact (itself text).behind _
  by_cases hfirst : first = []
  · simpa only [hfirst, List.nil_append] using hrest
  · have happend : ∀ a, Text.commaSeparated ((first ++ a :: second).map text) =
        Text.commaSeparated (first.map text) ++ ", " ++
          Text.commaSeparated ((a :: second).map text) := by
      intro a
      rw [List.map_append]
      exact String.intercalate_append_of_ne_nil (by simpa using hfirst) (List.cons_ne_nil _ _)
    simp only [happend]
    exact hrest.before _

end Shows

/-! ## Parts of clauses -/

/-- A list with a member in its middle is not empty. -/
theorem isEmpty_map_middle (f : α → δ) (first second : List α) (a : α) :
    ((first ++ a :: second).map f).isEmpty = false := by
  simp

theorem OrderKey.shows_key (intro : String) (first second : List (OrderKey Expr)) :
    Shows OrderKey.sql fun key =>
      OrderKey.clauseText intro ((first ++ key :: second).map (OrderKey.map Expr.sql)) := by
  simp only [OrderKey.clauseText, isEmpty_map_middle, List.map_map]
  exact (Shows.member OrderKey.sql first second).before intro

theorem Keep.shows_key (keep : Keep Expr) (first second : List (OrderKey Expr)) :
    Shows OrderKey.sql fun key => Keep.sql { keep with orderBy := first ++ key :: second } := by
  have horder := OrderKey.shows_key " ORDER BY " first second
  exact (horder.before ("KEEP (" ++ keep.name ++ keep.rank)).behind ")"

namespace Call

/-- The arguments of a call have brackets of their own unless a quantifier precedes them. -/
theorem shows_arguments (c : Call Expr) :
    Shows (Kind.arguments c.quantifier.isNone).sql fun es =>
      Call.sql { c with arguments := some es } := by
  -- The kind of the list and the rule for the arguments both look at the quantifier.
  have hlist : Shows (Kind.arguments c.quantifier.isNone).sql fun es =>
      (Call.map Expr.sql { c with arguments := some es }).argumentsText := by
    obtain ⟨name, arguments, quantifier, allColumns, escaped, field, keep⟩ := c
    cases quantifier with
    | none => exact Shows.itself _
    | some quantifier => exact ((Shows.itself _).before ("(" ++ quantifier.token ++ " ")).behind ")"
  have hname := hlist.before (Text.onlyIf c.escaped "\x7bfn " ++ c.name)
  exact ((hname.behind (Text.ofOption c.field fun f => "." ++ f)).behind
    (Text.ofOption (c.keep.map (Keep.map Expr.sql)) fun k => " " ++ k.text)).behind
    (Text.onlyIf c.escaped "\x7d")

theorem shows_keep (c : Call Expr) :
    Shows Keep.sql fun k => Call.sql { c with keep := some k } := by
  have hkeep := ((Shows.itself Keep.sql).before " ").before
    (Text.onlyIf c.escaped "\x7bfn " ++ c.name ++ (c.map Expr.sql).argumentsText ++
      Text.ofOption c.field fun f => "." ++ f)
  exact hkeep.behind (Text.onlyIf c.escaped "\x7d")

end Call

namespace Analytic

/-- The text of an analytic function in front of its keep clause. -/
def callText (a : Analytic String) : String :=
  a.name ++ "(" ++ Text.onlyIf a.distinct "DISTINCT " ++ a.argumentsText ++
    Text.onlyIf a.ignoreNulls " IGNORE NULLS" ++ ") "

theorem shows_keep (a : Analytic Expr) :
    Shows Keep.sql fun k => Analytic.sql { a with keep := some k } := by
  have hkeep := ((Shows.itself Keep.sql).behind " ").before (a.map Expr.sql).callText
  exact ((((hkeep.behind a.kind.token).behind " (").behind
    (a.map Expr.sql).partitionText).behind (a.map Expr.sql).orderText).behind ")"

/-- What shows in the ordering shows in the whole. -/
theorem shows_of_orderText {part : α → String} (a : Analytic Expr)
    {orderBy : α → List (OrderKey Expr)} {frame : α → Option (Frame Expr)}
    (h : Shows part fun x =>
      (Analytic.map Expr.sql { a with orderBy := orderBy x, frame := frame x }).orderText) :
    Shows part fun x => Analytic.sql { a with orderBy := orderBy x, frame := frame x } := by
  have hwindow := h.before ((a.map Expr.sql).callText ++
    Text.ofOption (a.keep.map (Keep.map Expr.sql)) (fun k => k.text ++ " ") ++ a.kind.token ++
    " (" ++ (a.map Expr.sql).partitionText)
  exact hwindow.behind ")"

theorem shows_key (a : Analytic Expr) (first second : List (OrderKey Expr)) :
    Shows OrderKey.sql fun key => Analytic.sql { a with orderBy := first ++ key :: second } := by
  refine a.shows_of_orderText ?_
  simp only [map, orderText, isEmpty_map_middle]
  exact (OrderKey.shows_key "ORDER BY " first second).behind _

theorem shows_frame (a : Analytic Expr) (h : a.orderBy ≠ []) :
    Shows Frame.sql fun f => Analytic.sql { a with frame := some f } := by
  have hne : (a.orderBy.map (OrderKey.map Expr.sql)).isEmpty = false := by simpa using h
  refine a.shows_of_orderText ?_
  simp only [map, orderText, hne]
  exact ((Shows.itself Frame.sql).before " ").before _

end Analytic

namespace GroupConcat

theorem shows_arguments (g : GroupConcat Expr) :
    Shows (Kind.arguments false).sql fun es => GroupConcat.sql { g with arguments := es } := by
  have hlist := (Shows.itself (Kind.arguments false).sql).before
    ("GROUP_CONCAT(" ++ Text.onlyIf g.distinct "DISTINCT ")
  exact ((hlist.behind
    (OrderKey.clauseText " ORDER BY " (g.orderBy.map (OrderKey.map Expr.sql)))).behind
    (Text.ofOption g.separator fun s => " SEPARATOR " ++ Text.quoted s)).behind ")"

theorem shows_key (g : GroupConcat Expr) (first second : List (OrderKey Expr)) :
    Shows OrderKey.sql fun key =>
      GroupConcat.sql { g with orderBy := first ++ key :: second } := by
  have horder := (OrderKey.shows_key " ORDER BY " first second).before
    ("GROUP_CONCAT(" ++ Text.onlyIf g.distinct "DISTINCT " ++
      Arguments.text false (g.arguments.map Expr.sql))
  exact (horder.behind (Text.ofOption g.separator fun s => " SEPARATOR " ++ Text.quoted s)).behind
    ")"

end GroupConcat

namespace Frame

theorem shows_start (unit : FrameUnit) (stop : FrameBound Expr) :
    Shows FrameBound.sql fun bound => Frame.sql ⟨unit, .between bound stop⟩ := by
  have hstart := (((Shows.itself FrameBound.sql).before "BETWEEN ").behind " AND ").behind stop.sql
  exact hstart.before (unit.token ++ " ")

theorem shows_stop (unit : FrameUnit) (start : FrameBound Expr) :
    Shows FrameBound.sql fun bound => Frame.sql ⟨unit, .between start bound⟩ := by
  have hstop := (Shows.itself FrameBound.sql).before ("BETWEEN " ++ start.sql ++ " AND ")
  exact hstop.before (unit.token ++ " ")

end Frame

namespace Select

/-- The text of a select up to its table. -/
def headText (s : Select String) : String :=
  "SELECT " ++ Text.onlyIf s.distinct "DISTINCT " ++
    Text.commaSeparated (s.items.map SelectItem.text) ++
    Text.ofOption s.source fun table => " FROM " ++ table.text

/-- What shows up to the table shows in the whole. -/
theorem shows_of_headText {part : α → String} (s : Select Expr)
    {items : α → List (SelectItem Expr)} {source : α → Option Table}
    (h : Shows part fun x =>
      (Select.map Expr.sql { s with items := items x, source := source x }).headText) :
    Shows part fun x => Select.sql { s with items := items x, source := source x } := by
  have hcondition := h.behind (Text.ofOption (s.condition.map Expr.sql) fun e => " WHERE " ++ e)
  have hgroup := hcondition.behind (s.map Expr.sql).groupText
  exact ((hgroup.behind (Text.ofOption (s.having.map Expr.sql) fun e => " HAVING " ++ e)).behind
    (OrderKey.clauseText " ORDER BY " (s.orderBy.map (OrderKey.map Expr.sql)))).behind
    (Text.ofOption (s.limit.map Expr.sql) fun e => " LIMIT " ++ e)

/-- All columns of a table show the qualifier of the table, not its text. -/
theorem shows_tableColumns (s : Select Expr) (first second : List (SelectItem Expr)) :
    Shows Kind.qualifier.sql fun t =>
      Select.sql { s with items := first ++ .tableColumns t.val :: second } := by
  let itemText : SelectItem Expr → String := SelectItem.text ∘ SelectItem.map Expr.sql
  have hitem : Shows Kind.qualifier.sql fun t : Qualifier => itemText (.tableColumns t.val) :=
    (Shows.itself Kind.qualifier.sql).behind ".*"
  have hitems := hitem.trans (Shows.member itemText first second)
  refine s.shows_of_headText ?_
  simp only [map, headText, List.map_map]
  exact (hitems.before ("SELECT " ++ Text.onlyIf s.distinct "DISTINCT ")).behind
    (Text.ofOption s.source fun table => " FROM " ++ table.text)

theorem shows_source (s : Select Expr) :
    Shows Table.text fun t => Select.sql { s with source := some t } := by
  refine s.shows_of_headText ?_
  exact ((Shows.itself Table.text).before " FROM ").before
    ("SELECT " ++ Text.onlyIf s.distinct "DISTINCT " ++
      Text.commaSeparated ((s.items.map (SelectItem.map Expr.sql)).map SelectItem.text))

theorem shows_key (s : Select Expr) (first second : List (OrderKey Expr)) :
    Shows OrderKey.sql fun key => Select.sql { s with orderBy := first ++ key :: second } := by
  have horder := (OrderKey.shows_key " ORDER BY " first second).before
    ((s.map Expr.sql).headText ++
      Text.ofOption (s.condition.map Expr.sql) (fun e => " WHERE " ++ e) ++
      (s.map Expr.sql).groupText ++
      Text.ofOption (s.having.map Expr.sql) (fun e => " HAVING " ++ e))
  exact horder.behind (Text.ofOption (s.limit.map Expr.sql) fun e => " LIMIT " ++ e)

end Select

theorem CommonTable.shows_query (t : CommonTable Expr) :
    Shows Query.sql fun q => CommonTable.sql { t with query := q } :=
  ((Shows.itself Query.sql).before (t.name ++ columnsText t.columns ++ " AS (")).behind ")"

namespace SubQuery

theorem shows_query (sub : SubQuery Expr) :
    Shows Query.sql fun q => SubQuery.sql { sub with query := q } := by
  have hquery := (Shows.itself Query.sql).before
    (Text.onlyIf sub.brackets "(" ++ (sub.map Expr.sql).withText)
  exact hquery.behind (Text.onlyIf sub.brackets ")")

theorem shows_commonTable (sub : SubQuery Expr) (first second : List (CommonTable Expr)) :
    Shows CommonTable.sql fun t =>
      SubQuery.sql { sub with commonTables := first ++ t :: second } := by
  have htables : Shows CommonTable.sql fun t =>
      (SubQuery.map Expr.sql { sub with commonTables := first ++ t :: second }).withText := by
    simp only [map, withText, isEmpty_map_middle, List.map_map]
    exact ((Shows.member CommonTable.sql first second).before "WITH ").behind " "
  exact ((htables.before (Text.onlyIf sub.brackets "(")).behind sub.query.sql).behind
    (Text.onlyIf sub.brackets ")")

end SubQuery

theorem Items.shows_row (first second : List (List Expr)) :
    Shows Arguments.sql fun es => Items.sql (.rows (first ++ es :: second)) := by
  simp only [sql, map, text, List.map_map]
  exact Shows.member Arguments.sql first second

/-- A column shows the qualifier of its table, not the text of the table. -/
theorem Column.shows_table (name : String) :
    Shows Kind.qualifier.sql fun t => Column.text ⟨some t.val, name⟩ := by
  obtain ⟨u, v, htext⟩ := ((Shows.itself Kind.qualifier.sql).behind ".").behind name
  refine ⟨u, v, fun t => ?_⟩
  rw [← htext t]
  exact if_neg t.property

/-! ## Openings -/

/-- A value of the second kind with a place left open for a part of the first kind. -/
inductive Opening : Kind → Kind → Type
  /-- A sub-expression of a value of any kind. -/
  | expr {k : Kind} (shape : k.Over (Option Expr))
    (one_hole : (k.written shape).countP Option.isNone = 1) : Opening .expr k
  /-- The root of an expression. -/
  | root : Opening .node .expr
  /-- Items on the left of a membership test. -/
  | member (items : Items Expr) (negated : Bool) (join : OuterJoin) : Opening .items .node
  /-- Items on the right of a membership test. -/
  | items (member : Member Expr) (negated : Bool) (join : OuterJoin) : Opening .items .node
  | case : Opening .case .node
  | call : Opening .call .node
  | analytic : Opening .analytic .node
  | groupConcat : Opening .groupConcat .node
  | cast (e : Expr) (keyword : Bool) : Opening .dataType .node
  | row (name : Option String) : Opening (.arguments true) .node
  | values : Opening (.arguments true) .node
  | column : Opening .column .node
  | document (path : List PathStep) : Opening .column .node
  | literal : Opening .literal .node
  | parameter : Opening .parameter .node
  | subQuery : Opening .subQuery .node
  | allOf : Opening .subQuery .node
  | anyOf (word : AnyWord) : Opening .subQuery .node
  | itemList : Opening (.arguments true) .items
  | itemRow (first second : List (List Expr)) : Opening (.arguments true) .items
  | itemQuery : Opening .subQuery .items
  /-- The arguments of a call. Behind a quantifier they have no brackets of their own. -/
  | arguments (c : Call Expr) : Opening (.arguments c.quantifier.isNone) .call
  | callKeep (c : Call Expr) : Opening .keep .call
  | analyticKeep (a : Analytic Expr) : Opening .keep .analytic
  | concatenated (g : GroupConcat Expr) : Opening (.arguments false) .groupConcat
  | keepKey (k : Keep Expr) (first second : List (OrderKey Expr)) : Opening .orderKey .keep
  | analyticKey (a : Analytic Expr) (first second : List (OrderKey Expr)) :
    Opening .orderKey .analytic
  | groupConcatKey (g : GroupConcat Expr) (first second : List (OrderKey Expr)) :
    Opening .orderKey .groupConcat
  | selectKey (s : Select Expr) (first second : List (OrderKey Expr)) : Opening .orderKey .select
  /-- The frame of an analytic function that has an ordering. -/
  | frame (a : Analytic Expr) (h : a.orderBy ≠ []) : Opening .frame .analytic
  | singleBound (unit : FrameUnit) : Opening .frameBound .frame
  | startBound (unit : FrameUnit) (stop : FrameBound Expr) : Opening .frameBound .frame
  | stopBound (unit : FrameUnit) (start : FrameBound Expr) : Opening .frameBound .frame
  | plain : Opening .select .query
  | leftQuery (op : SetOp) (all : Bool) (right : Query Expr) : Opening .query .query
  | rightQuery (op : SetOp) (all : Bool) (left : Query Expr) : Opening .query .query
  | namedQuery (t : CommonTable Expr) : Opening .query .commonTable
  | body (sub : SubQuery Expr) : Opening .query .subQuery
  | commonTable (sub : SubQuery Expr) (first second : List (CommonTable Expr)) :
    Opening .commonTable .subQuery
  | source (s : Select Expr) : Opening .table .select
  /-- The table in front of a column. -/
  | qualified (name : String) : Opening .qualifier .column
  /-- The table all whose columns are selected. -/
  | tableColumns (s : Select Expr) (first second : List (SelectItem Expr)) :
    Opening .qualifier .select
  | element : Opening .dataType .dataType

namespace Opening

/-- Puts a part into the open place. -/
def fill : {c k : Kind} → Opening c k → c.Over Expr → k.Over Expr
  | _, k, expr shape _, e => k.map (fun child => child.getD e) shape
  | _, _, root, n => Expr.node n
  | _, _, member right negated join, is => Node.membership (.items is) right negated join
  | _, _, items left negated join, is => Node.membership left is negated join
  | _, _, case, c => Node.case c
  | _, _, call, c => Node.call c
  | _, _, analytic, a => Node.analytic a
  | _, _, groupConcat, g => Node.groupConcat g
  | _, _, cast e keyword, type => Node.cast e type keyword
  | _, _, row name, es => Node.row name es
  | _, _, values, es => Node.values es
  | _, _, column, c => Node.column c
  | _, _, document path, c => Node.document c path
  | _, _, literal, l => Node.literal l
  | _, _, parameter, p => Node.parameter p
  | _, _, subQuery, sub => Node.subQuery sub
  | _, _, allOf, sub => Node.allOf sub
  | _, _, anyOf word, sub => Node.anyOf word sub
  | _, _, itemList, es => Items.list es
  | _, _, itemRow first second, es => Items.rows (first ++ es :: second)
  | _, _, itemQuery, sub => Items.query sub
  | _, _, arguments c, es => { c with arguments := some es }
  | _, _, callKeep c, k => { c with keep := some k }
  | _, _, analyticKeep a, k => { a with keep := some k }
  | _, _, concatenated g, es => { g with arguments := es }
  | _, _, keepKey k first second, key => { k with orderBy := first ++ key :: second }
  | _, _, analyticKey a first second, key => { a with orderBy := first ++ key :: second }
  | _, _, groupConcatKey g first second, key => { g with orderBy := first ++ key :: second }
  | _, _, selectKey s first second, key => { s with orderBy := first ++ key :: second }
  | _, _, frame a _, f => { a with frame := some f }
  | _, _, singleBound unit, bound => Frame.mk unit (.single bound)
  | _, _, startBound unit stop, bound => Frame.mk unit (.between bound stop)
  | _, _, stopBound unit start, bound => Frame.mk unit (.between start bound)
  | _, _, plain, s => Query.plain s
  | _, _, leftQuery op all right, q => Query.compound op all q right
  | _, _, rightQuery op all left, q => Query.compound op all left q
  | _, _, namedQuery t, q => { t with query := q }
  | _, _, body sub, q => { sub with query := q }
  | _, _, commonTable sub first second, t => { sub with commonTables := first ++ t :: second }
  | _, _, source s, t => { s with source := some t }
  | _, _, qualified name, t => Column.mk (some t.val) name
  | _, _, tableColumns s first second, t =>
    { s with items := first ++ .tableColumns t.val :: second }
  | _, _, element, type => DataType.array type

/-- A sub-expression that is written shows. -/
theorem shows_expr {k : Kind} (shape : k.Over (Option Expr))
    (hone : (k.written shape).countP Option.isNone = 1) :
    Shows Expr.sql fun e => k.sql (k.map (fun child => child.getD e) shape) := by
  obtain ⟨u, v, htext⟩ := (k.composed shape).exists_around hone Expr.sql
  simp only [k.sql_eq, k.map_map]
  exact ⟨u, v, htext⟩

/-- What shows in the text of a root shows in the text of the expression. -/
theorem shows_node {part : α → String} {fill : α → Node Expr}
    (h : Shows part fun x => ((fill x).map Expr.sql).text) :
    Shows part fun x => Kind.node.sql (fill x) := by
  simpa only [Kind.sql, Expr.sql_node] using h

/-- The part shows, whatever it is. -/
theorem shows {c k : Kind} (o : Opening c k) : Shows c.sql fun x => k.sql (o.fill x) := by
  -- The texts of nodes are folds and do not unfold, so those cases go through the rule for nodes.
  cases o with
  | expr shape one_hole => exact shows_expr shape one_hole
  | root => exact Shows.itself Kind.node.sql
  | member right negated join =>
    exact shows_node ((((Shows.itself Items.sql).behind (testNegationText negated)).behind
      " IN ").behind right.sql)
  | items left negated join =>
    exact shows_node ((Shows.itself Items.sql).before ((left.map Expr.sql).text join ++
      testNegationText negated ++ " IN "))
  | case => exact shows_node (Shows.itself Case.sql)
  | call => exact shows_node (Shows.itself Call.sql)
  | analytic => exact shows_node (Shows.itself Analytic.sql)
  | groupConcat => exact shows_node (Shows.itself GroupConcat.sql)
  | cast e keyword =>
    refine shows_node ?_
    cases keyword with
    | true => exact ((Shows.itself DataType.sql).before ("CAST(" ++ e.sql ++ " AS ")).behind ")"
    | false => exact (Shows.itself DataType.sql).before (e.sql ++ "::")
  | row name => exact shows_node ((Shows.itself Arguments.sql).before (Text.ofOption name id))
  | values => exact shows_node (Shows.itself Arguments.sql)
  | column => exact shows_node (Shows.itself Column.text)
  | document path =>
    exact shows_node ((Shows.itself Column.text).behind (String.join (path.map PathStep.text)))
  | literal => exact shows_node (Shows.itself Literal.text)
  | parameter => exact shows_node (Shows.itself Parameter.text)
  | subQuery => exact shows_node (Shows.itself SubQuery.sql)
  | allOf => exact shows_node ((Shows.itself SubQuery.sql).before "ALL ")
  | anyOf word => exact shows_node ((Shows.itself SubQuery.sql).before (word.token ++ " "))
  | itemList => exact Shows.itself Arguments.sql
  | itemRow first second => exact Items.shows_row first second
  | itemQuery => exact Shows.itself SubQuery.sql
  | arguments c => exact c.shows_arguments
  | callKeep c => exact c.shows_keep
  | analyticKeep a => exact a.shows_keep
  | concatenated g => exact g.shows_arguments
  | keepKey k first second => exact k.shows_key first second
  | analyticKey a first second => exact a.shows_key first second
  | groupConcatKey g first second => exact g.shows_key first second
  | selectKey s first second => exact s.shows_key first second
  | frame a h => exact a.shows_frame h
  | singleBound unit => exact (Shows.itself FrameBound.sql).before (unit.token ++ " ")
  | startBound unit stop => exact Frame.shows_start unit stop
  | stopBound unit start => exact Frame.shows_stop unit start
  | plain => exact Shows.itself Select.sql
  | leftQuery op all right =>
    exact ((Shows.itself Query.sql).behind (op.joiner all)).behind right.sql
  | rightQuery op all left => exact (Shows.itself Query.sql).before (left.sql ++ op.joiner all)
  | namedQuery t => exact t.shows_query
  | body sub => exact sub.shows_query
  | commonTable sub first second => exact sub.shows_commonTable first second
  | source s => exact s.shows_source
  | qualified name => exact Column.shows_table name
  | tableColumns s first second => exact s.shows_tableColumns first second
  | element => exact (Shows.itself DataType.sql).behind "[]"

end Opening

/-! ## Ways -/

/-- A way from a part to a value that it stands in, at any depth. -/
inductive Way (b : Kind) : Kind → Type
  | here : Way b b
  | through {c k : Kind} (inner : Way b c) (o : Opening c k) : Way b k

namespace Way

variable {b : Kind}

/-- Puts a part into the place at the end of the way. -/
def fill : {k : Kind} → Way b k → b.Over Expr → k.Over Expr
  | _, here, x => x
  | _, through inner o, x => o.fill (inner.fill x)

/-- The part shows, however far inside it stands. -/
theorem shows {k : Kind} (w : Way b k) : Shows b.sql fun x => k.sql (w.fill x) := by
  induction w with
  | here => exact Shows.itself b.sql
  | through inner o ih => exact ih.trans o.shows

end Way

/-! ## Canonical texts -/

namespace Kind

/-- A row without name is written as the list of its elements. -/
theorem sql_row_none (es : List Expr) : (Expr.node (.row none es)).sql = Arguments.sql es := by
  rw [Expr.sql_node]
  exact String.empty_append

/-- Without brackets and common tables a sub-query is written as its query. -/
theorem sql_withoutBrackets (q : Query Expr) :
    (SubQuery.ofQuery q).withoutBrackets.sql = q.sql := by
  have htext : (SubQuery.ofQuery q).withoutBrackets.sql = "" ++ "" ++ q.sql ++ "" := rfl
  rw [htext, String.append_empty, String.append_empty, String.empty_append]

/-- A table without alias is written alike where it is introduced and in front of its columns. -/
theorem sql_qualifier {t : Qualifier} (h : t.val.label = none) :
    Kind.qualifier.sql t = t.val.text := by
  rw [sql, Table.text, Table.qualifier, h]
  exact String.append_empty.symm

/-- A value has one text, its SQL text. Without a query renderer, or with the plain one, a value of
any kind is written as this text, without failure and from any state of a rendering, and an
expression that is rendered to a text of its own yields it. Wherever the value stands in another,
its text stands in the text of the other, between two texts that depend on the place alone.

Wrapped in an expression, a clause, a name or a literal keeps its text; a list has the same text as
values, as a row without name and as items; a select has the same text as a query and as a sub-query
without brackets and common tables. A list without brackets, as it stands behind a quantifier and in
a concatenation, is the list but for the brackets, and a table without alias qualifies a column by
its text. -/
theorem canonical_text {renderer : Option QueryRenderer}
    (hr : renderer = none ∨ renderer = some .plain) :
    (∀ (k : Kind) (x : k.Over Expr) (p : Progress),
      (p.run (k.steps renderer x)).2 = none ∧
        (p.run (k.steps renderer x)).1.buffer = p.buffer ++ k.sql x) ∧
    (∀ (e : Expr) (buffer : String) (budget : Nat),
      let s : Session := ⟨renderer, buffer, budget⟩
      (s.renderToText e).1 = s ∧ (s.renderToText e).2.fault = none ∧
        (s.renderToText e).2.text = some e.sql) ∧
    (∀ (c k : Kind) (w : Way c k), ∃ u v, ∀ x, k.sql (w.fill x) = u ++ c.sql x ++ v) ∧
    ((∀ c : Call Expr, (Expr.node (.call c)).sql = c.sql) ∧
      (∀ a : Analytic Expr, (Expr.node (.analytic a)).sql = a.sql) ∧
      (∀ g : GroupConcat Expr, (Expr.node (.groupConcat g)).sql = g.sql) ∧
      (∀ c : Case Expr, (Expr.node (.case c)).sql = c.sql) ∧
      (∀ sub : SubQuery Expr, (Expr.node (.subQuery sub)).sql = sub.sql) ∧
      (∀ c : Column, (Expr.node (.column c)).sql = c.text) ∧
      (∀ l : Literal, (Expr.node (.literal l)).sql = l.text) ∧
      ∀ p : Parameter, (Expr.node (.parameter p)).sql = p.text) ∧
    (∀ es : List Expr, (Expr.node (.values es)).sql = Arguments.sql es ∧
      (Expr.node (.row none es)).sql = Arguments.sql es ∧
      (Items.list es).sql = Arguments.sql es ∧
      Text.bracketed ((Kind.arguments false).sql es) = Arguments.sql es) ∧
    (∀ s : Select Expr, (Query.plain s).sql = s.sql ∧
      (SubQuery.ofQuery (.plain s)).withoutBrackets.sql = s.sql) ∧
    ∀ t : Qualifier, t.val.label = none → Kind.qualifier.sql t = t.val.text := by
  have hbuiltIn : IsBuiltIn renderer := by
    rcases hr with rfl | rfl <;> simp [IsBuiltIn]
  refine ⟨run_steps hbuiltIn, fun e buffer budget => ?_, fun c k w => w.shows, ?_, fun es => ?_,
    fun s => ⟨rfl, sql_withoutBrackets (.plain s)⟩, fun t => sql_qualifier⟩
  · exact Session.renderToText_of_isBuiltIn ⟨renderer, buffer, budget⟩ hbuiltIn e
  · exact ⟨fun c => Expr.sql_node (.call c), fun a => Expr.sql_node (.analytic a),
      fun g => Expr.sql_node (.groupConcat g), fun c => Expr.sql_node (.case c),
      fun sub => Expr.sql_node (.subQuery sub), fun c => Expr.sql_node (.column c),
      fun l => Expr.sql_node (.literal l), fun p => Expr.sql_node (.parameter p)⟩
  · exact ⟨Expr.sql_node (.values es), sql_row_none es, rfl, rfl⟩

/-- A key in the ordering of a common table, and the table in a query on the right of a membership
test. -/
theorem canonical_text_key :
    let select := Select.ofItems [.ofExpr (.column "a")]
    let sub := SubQuery.ofQuery (.plain (Select.ofItems [.ofExpr (.column "c")]))
    let w : Way .orderKey .expr :=
      (((((((Way.here.through (.selectKey select [] [])).through .plain).through
        (.namedQuery ⟨"t", [], .plain select⟩)).through (.commonTable sub [] [])).through
        .itemQuery).through (.items (.expr (.column "é")) true .absent)).through .root)
    let key := OrderKey.descending (Expr.column "b")
    let s : Session := ⟨some .plain, "x", 0⟩
    (s.renderer = none ∨ s.renderer = some .plain) ∧ key.sql = "b DESC" ∧
      (∃ u v, Expr.sql (w.fill key) = u ++ key.sql ++ v) ∧
      (s.renderToText (w.fill key)).2.text =
        some "é NOT IN (WITH t AS (SELECT a ORDER BY b DESC) SELECT c)" := by
  intro select sub w key s
  have hr : s.renderer = none ∨ s.renderer = some .plain := .inr rfl
  obtain ⟨-, htext, hplace, -⟩ := canonical_text hr
  obtain ⟨u, v, hfill⟩ := hplace _ _ w
  refine ⟨hr, by decide +kernel, ⟨u, v, hfill key⟩, ?_⟩
  rw [(htext (w.fill key) "x" 0).2.2]
  decide +kernel

/-- A text that does not hold another as a contiguous piece. -/
theorem not_exists_around {part whole : String} (h : ¬ part.toList <:+: whole.toList) :
    ¬ ∃ u v, whole = u ++ part ++ v := by
  rintro ⟨u, v, rfl⟩
  exact h ⟨u.toList, v.toList, by simp only [String.toList_append]⟩

/-- Not every part is written as it is on its own : a list gives up its brackets behind a quantifier
and in a concatenation, and a table is written by its alias in front of a column and of all its
columns. -/
theorem not_verbatim :
    let a := Expr.column "a"
    let count := ((Call.ofName "count").withArguments [a]).withQuantifier .distinct
    let concat : GroupConcat Expr := ⟨true, [a], [], none⟩
    let users := (Table.ofName "users").withAlias ⟨"u", true⟩
    let id := (Column.ofName "id").withTable users
    let all : Select Expr := .ofItems [.tableColumns users]
    (count.sql = "count(DISTINCT a)" ∧ ¬ ∃ u v, count.sql = u ++ Arguments.sql [a] ++ v) ∧
      (concat.sql = "GROUP_CONCAT(DISTINCT a)" ∧
        ¬ ∃ u v, concat.sql = u ++ Arguments.sql [a] ++ v) ∧
      (id.text = "u.id" ∧ ¬ ∃ u v, id.text = u ++ users.text ++ v) ∧
      (all.sql = "SELECT u.*" ∧ ¬ ∃ u v, all.sql = u ++ users.text ++ v) := by
  intro a count concat users id all
  refine ⟨⟨?_, not_exists_around ?_⟩, ⟨?_, not_exists_around ?_⟩, ⟨?_, not_exists_around ?_⟩,
    ?_, not_exists_around ?_⟩ <;> decide +kernel

end Kind

end SqlText
