import SqlText.Expr.Lemmas
import SqlText.Expr.Text
import SqlText.Proofs.Handoff.Parts

/-!
# The pieces of a text

The text of a node is a fixed sequence of pieces : words of its own and the texts of
sub-expressions. Which words there are and where the sub-expressions stand does not depend on what
the sub-expressions are (`Node.composed`). Every sub-expression stands there once, in the order of
`Node.children`; only some fields of analytic functions are not written (`Analytic.written`).
`Expr.writtenNodes` follows what is written down the tree.
-/

namespace SqlText

variable {α β ε δ : Type}

/-! ## Pieces -/

/-- A piece of a text : words, or a part whose text is put in its place. -/
inductive Piece (ε : Type) where
  | word (text : String)
  | part (e : ε)

namespace Piece

/-- The text of a piece, given the texts of the parts. -/
def text (f : ε → String) : Piece ε → String
  | word text => text
  | part e => f e

/-- The part of a piece, if it is not made of words. -/
def part? : Piece ε → Option ε
  | word _ => none
  | part e => some e

/-- The text of pieces, given the texts of the parts. -/
def joined (f : ε → String) (pieces : List (Piece ε)) : String :=
  String.join (pieces.map (text f))

theorem joined_append (f : ε → String) (first second : List (Piece ε)) :
    joined f (first ++ second) = joined f first ++ joined f second := by
  rw [joined, List.map_append, String.join_append]
  rfl

end Piece

/-! ## Texts that take turns -/

namespace Text

/-- The first texts, each with the next of the second texts in front of it but for the very first :
one, then in turn a second one and a first one. -/
def alternate : List String → List String → String
  | [], _ => ""
  | first :: firsts, seconds => first ++ String.join (List.zipWith (· ++ ·) seconds firsts)

/-- Two alternations with a text between them are one. -/
theorem alternate_append {firsts seconds firsts' : List String} (between : String)
    (seconds' : List String) (h : firsts.length = seconds.length + 1) (h' : firsts' ≠ []) :
    alternate (firsts ++ firsts') (seconds ++ between :: seconds') =
      alternate firsts seconds ++ between ++ alternate firsts' seconds' := by
  obtain ⟨first, firsts, rfl⟩ := List.exists_cons_of_length_eq_add_one h
  obtain ⟨first', firsts', rfl⟩ := List.exists_cons_of_ne_nil h'
  have hlength : seconds.length = firsts.length := (Nat.succ.inj h).symm
  simp [alternate, List.zipWith_append hlength, String.append_assoc]

end Text

/-! ## Composed texts -/

/-- A text, given by the texts of parts, that consists of words and of the texts of the listed parts
in their order. -/
def Composed (parts : List ε) (text : (ε → String) → String) : Prop :=
  ∃ pieces : List (Piece ε), pieces.filterMap Piece.part? = parts ∧
    ∀ f, text f = Piece.joined f pieces

namespace Composed

variable {parts first second : List ε} {text left right : (ε → String) → String}

theorem word (w : String) : Composed ([] : List ε) fun _ => w :=
  ⟨[.word w], rfl, fun f => by simp [Piece.joined, Piece.text]⟩

theorem part (e : ε) : Composed [e] fun f => f e :=
  ⟨[.part e], rfl, fun f => by simp [Piece.joined, Piece.text]⟩

theorem append (hleft : Composed first left) (hright : Composed second right) :
    Composed (first ++ second) fun f => left f ++ right f := by
  obtain ⟨ps, rfl, hps⟩ := hleft
  obtain ⟨qs, rfl, hqs⟩ := hright
  refine ⟨ps ++ qs, List.filterMap_append, fun f => ?_⟩
  rw [Piece.joined_append, ← hps, ← hqs]

/-- Only the texts of the listed parts matter. -/
theorem congr (h : Composed parts text) {f g : ε → String} (hfg : ∀ e ∈ parts, f e = g e) :
    text f = text g := by
  obtain ⟨pieces, rfl, htext⟩ := h
  rw [htext, htext, Piece.joined, Piece.joined]
  refine congrArg String.join (List.map_congr_left fun piece hpiece => ?_)
  cases piece with
  | word text => rfl
  | part e => exact hfg e (List.mem_filterMap.2 ⟨.part e, hpiece, rfl⟩)

/-- If a text has a property whenever the texts of all parts have it, it is enough that the listed
parts have it : no other part is written. -/
theorem of_parts {P : String → Prop} (hempty : P "") (h : Composed parts text)
    (hall : ∀ f, (∀ e, P (f e)) → P (text f)) {f : ε → String} (hf : ∀ e ∈ parts, P (f e)) :
    P (text f) := by
  classical
  have hcongr : text f = text fun e => if e ∈ parts then f e else "" :=
    h.congr fun e he => (if_pos he).symm
  rw [hcongr]
  refine hall _ fun e => ?_
  split
  · next he => exact hf e he
  · exact hempty

/-- The text of a part stands between texts that are composed of the parts before and behind it. -/
theorem split {e : ε} (h : Composed (first ++ e :: second) text) :
    ∃ left right, Composed first left ∧ Composed second right ∧
      ∀ f, text f = left f ++ f e ++ right f := by
  obtain ⟨pieces, hparts, htext⟩ := h
  obtain ⟨ps, qs, rfl, hps, hqs⟩ := List.filterMap_eq_append_iff.1 hparts
  obtain ⟨words, piece, rest, rfl, hwords, hpiece, hrest⟩ := List.filterMap_eq_cons_iff.1 hqs
  have hfirst : (ps ++ words).filterMap Piece.part? = first := by
    rw [List.filterMap_append, hps, List.filterMap_eq_nil_iff.2 hwords, List.append_nil]
  refine ⟨fun f => Piece.joined f (ps ++ words), fun f => Piece.joined f rest,
    ⟨_, hfirst, fun _ => rfl⟩, ⟨_, hrest, fun _ => rfl⟩, fun f => ?_⟩
  obtain ⟨w⟩ | ⟨e'⟩ := piece
  · cases hpiece
  · obtain rfl := Option.some.inj hpiece
    rw [htext, ← List.append_assoc, Piece.joined_append, String.append_assoc]
    exact congrArg (Piece.joined f (ps ++ words) ++ ·) (by simp [Piece.joined, Piece.text])

/-- Words behind a composed text. -/
theorem behind (h : Composed parts text) (w : String) : Composed parts fun f => text f ++ w := by
  rw [← List.append_nil parts]
  exact h.append (word w)

/-- Words in front of a composed text. -/
theorem before (w : String) (h : Composed parts text) : Composed parts fun f => w ++ text f :=
  (word w).append h

theorem ofOption {o : Option α} {parts : α → List ε} {map : (ε → String) → α → β}
    {text : β → String} (h : ∀ a, Composed (parts a) fun f => text (map f a)) :
    Composed (o.toList.flatMap parts) fun f => Text.ofOption (o.map (map f)) text := by
  cases o with
  | none => exact word ""
  | some a =>
    rw [Option.toList_some, List.flatMap_singleton]
    exact h a

/-- An absent part leaves nothing behind. -/
theorem ofOption_part {o : Option ε} {text : String → String}
    (h : ∀ e : ε, Composed [e] fun f => text (f e)) :
    Composed o.toList fun f => Text.ofOption (o.map f) text := by
  cases o with
  | none => exact word ""
  | some e => exact h e

/-- A clause that is left out with its words if it lists nothing. -/
theorem unlessEmpty {xs : List α} {map : (ε → String) → α → β} (hparts : xs = [] → parts = [])
    (h : Composed parts text) :
    Composed parts fun f => if (xs.map (map f)).isEmpty then "" else text f := by
  cases xs with
  | nil =>
    rw [hparts rfl]
    exact word ""
  | cons x rest => exact h

theorem join {xs : List α} {parts : α → List ε} {text : (ε → String) → α → String}
    (h : ∀ a, Composed (parts a) fun f => text f a) :
    Composed (xs.flatMap parts) fun f => String.join (xs.map (text f)) := by
  induction xs with
  | nil => exact word ""
  | cons x rest ih =>
    simp only [List.flatMap_cons, List.map_cons, String.join_cons]
    exact (h x).append ih

theorem commaSeparated {xs : List α} {parts : α → List ε} {text : (ε → String) → α → String}
    (h : ∀ a, Composed (parts a) fun f => text f a) :
    Composed (xs.flatMap parts) fun f => Text.commaSeparated (xs.map (text f)) := by
  unfold Text.commaSeparated
  induction xs with
  | nil => exact word ""
  | cons x rest ih =>
    cases rest with
    | nil =>
      simp only [List.map_cons, List.map_nil, String.intercalate_singleton, List.flatMap_cons,
        List.flatMap_nil, List.append_nil]
      exact h x
    | cons y rest =>
      simp only [List.map_cons, String.intercalate_cons_cons] at ih ⊢
      exact ((h x).behind ", ").append ih

end Composed

/-! ## Clauses -/

theorem Arguments.composed (brackets : Bool) (arguments : List ε) :
    Composed arguments fun f => Arguments.text brackets (arguments.map f) := by
  have hlist : Composed arguments fun f => Text.commaSeparated (arguments.map f) := by
    have h : Composed (arguments.flatMap fun e => [e]) fun f =>
        Text.commaSeparated (arguments.map f) := Composed.commaSeparated Composed.part
    rwa [List.flatMap_singleton'] at h
  cases brackets with
  | true => exact (hlist.before "(").behind ")"
  | false => exact hlist

theorem OrderKey.composed (key : OrderKey ε) : Composed key.children fun f => (key.map f).text := by
  simp only [OrderKey.text, OrderKey.map]
  exact ((Composed.part key.expr).behind _).behind _

theorem OrderKey.composed_clause (intro : String) (keys : List (OrderKey ε)) :
    Composed (keys.flatMap OrderKey.children) fun f =>
      clauseText intro (keys.map (OrderKey.map f)) := by
  have hkeys : Composed (keys.flatMap OrderKey.children) fun f =>
      Text.commaSeparated ((keys.map (OrderKey.map f)).map OrderKey.text) := by
    simp only [List.map_map]
    exact Composed.commaSeparated OrderKey.composed
  exact Composed.unlessEmpty (fun h => h ▸ rfl) (hkeys.before intro)

theorem Keep.composed (keep : Keep ε) : Composed keep.children fun f => (keep.map f).text := by
  have horder := OrderKey.composed_clause " ORDER BY " keep.orderBy
  exact (Composed.before ("KEEP (" ++ keep.name ++ keep.rank) horder).behind ")"

theorem FrameBound.composed (bound : FrameBound ε) :
    Composed bound.children fun f => (bound.map f).text := by
  cases bound with
  | preceding offset => exact (Composed.part offset).behind _
  | following offset => exact (Composed.part offset).behind _
  | _ => exact Composed.word _

theorem FrameExtent.composed (extent : FrameExtent ε) :
    Composed extent.children fun f => (extent.map f).text := by
  cases extent with
  | single bound => exact bound.composed
  | between start stop =>
    exact ((Composed.before _ start.composed).behind _).append stop.composed

theorem Frame.composed (frame : Frame ε) : Composed frame.children fun f => (frame.map f).text :=
  Composed.before (frame.unit.token ++ " ") frame.extent.composed

theorem When.composed (branch : When ε) :
    Composed branch.children fun f => (branch.map f).text :=
  (((Composed.before _ (Composed.part branch.condition)).behind _).append
    (Composed.part branch.result)).behind _

theorem Case.composed (c : Case ε) : Composed c.children fun f => (c.map f).text := by
  have hoperand : Composed c.operand.toList fun f => Text.ofOption (c.operand.map f) (· ++ " ") :=
    Composed.ofOption_part fun e => (Composed.part e).behind " "
  have hbranches : Composed (c.branches.flatMap When.children) fun f =>
      String.join ((c.branches.map (When.map f)).map When.text) := by
    simp only [List.map_map]
    exact Composed.join When.composed
  have hotherwise : Composed c.otherwise.toList fun f =>
      Text.ofOption (c.otherwise.map f) fun e => "ELSE " ++ e ++ " " :=
    Composed.ofOption_part fun e => (Composed.before "ELSE " (Composed.part e)).behind " "
  exact (((Composed.before "CASE " hoperand).append hbranches).append hotherwise).behind "END"

theorem Call.composed_arguments (call : Call ε) :
    Composed call.arguments.toList.flatten fun f => (call.map f).argumentsText := by
  obtain ⟨name, arguments, quantifier, allColumns, escaped, field, keep⟩ := call
  cases arguments with
  | none => exact Composed.word (if allColumns then "(*)" else "()")
  | some arguments =>
    rw [Option.toList_some, List.flatten_singleton]
    cases quantifier with
    | none => exact Arguments.composed true arguments
    | some quantifier =>
      exact (Composed.before ("(" ++ quantifier.token ++ " ")
        (Arguments.composed false arguments)).behind ")"

theorem Call.composed (call : Call ε) : Composed call.children fun f => (call.map f).text := by
  have hkeep : Composed (call.keep.toList.flatMap Keep.children) fun f =>
      Text.ofOption (call.keep.map (Keep.map f)) fun k => " " ++ k.text :=
    Composed.ofOption fun k => Composed.before " " k.composed
  have hhead := Composed.before (Text.onlyIf call.escaped "\x7bfn " ++ call.name)
    call.composed_arguments
  exact ((hhead.behind (Text.ofOption call.field fun f => "." ++ f)).append hkeep).behind
    (Text.onlyIf call.escaped "\x7d")

namespace Analytic

/-- The arguments that are written : an offset only behind an argument, a default value only behind
an offset. -/
def writtenArguments (a : Analytic ε) : List ε :=
  match a.argument, a.offset with
  | none, _ => []
  | some argument, none => [argument]
  | some argument, some offset => argument :: offset :: a.defaultValue.toList

/-- The ordering, and the frame if there is an ordering. -/
def writtenOrder (a : Analytic ε) : List ε :=
  if a.orderBy.isEmpty then []
  else a.orderBy.flatMap OrderKey.children ++ a.frame.toList.flatMap Frame.children

/-- The sub-expressions that are written. -/
def written (a : Analytic ε) : List ε :=
  a.writtenArguments ++ a.keep.toList.flatMap Keep.children ++ a.partitionBy ++ a.writtenOrder

theorem composed_arguments (a : Analytic ε) :
    Composed a.writtenArguments fun f => (a.map f).argumentsText := by
  obtain ⟨name, kind, argument, offset, defaultValue, allColumns, distinct, ignoreNulls, keep,
    partitionBy, orderBy, frame⟩ := a
  cases argument with
  | none => exact Composed.word (Text.onlyIf allColumns "*")
  | some argument =>
    cases offset with
    | none => exact (Composed.part argument).behind ""
    | some offset =>
      have hvalue : Composed defaultValue.toList fun f =>
          Text.ofOption (defaultValue.map f) fun value => ", " ++ value :=
        Composed.ofOption_part fun e => Composed.before ", " (Composed.part e)
      exact (Composed.part argument).append
        ((Composed.before ", " (Composed.part offset)).append hvalue)

theorem composed_partition (a : Analytic ε) :
    Composed a.partitionBy fun f => (a.map f).partitionText := by
  have hlist := Arguments.composed false a.partitionBy
  exact Composed.unlessEmpty id ((Composed.before "PARTITION BY " hlist).behind " ")

theorem composed_order (a : Analytic ε) : Composed a.writtenOrder fun f => (a.map f).orderText := by
  have hframe : Composed (a.frame.toList.flatMap Frame.children) fun f =>
      Text.ofOption (a.frame.map (Frame.map f)) fun frame => " " ++ frame.text :=
    Composed.ofOption fun frame => Composed.before " " frame.composed
  have horder := (OrderKey.composed_clause "ORDER BY " a.orderBy).append hframe
  obtain ⟨name, kind, argument, offset, defaultValue, allColumns, distinct, ignoreNulls, keep,
    partitionBy, orderBy, frame⟩ := a
  cases orderBy with
  | nil => exact Composed.word ""
  | cons key rest => exact horder

theorem composed (a : Analytic ε) : Composed a.written fun f => (a.map f).text := by
  have hkeep : Composed (a.keep.toList.flatMap Keep.children) fun f =>
      Text.ofOption (a.keep.map (Keep.map f)) fun k => k.text ++ " " :=
    Composed.ofOption fun k => k.composed.behind " "
  have harguments := ((Composed.before (a.name ++ "(" ++ Text.onlyIf a.distinct "DISTINCT ")
    a.composed_arguments).behind (Text.onlyIf a.ignoreNulls " IGNORE NULLS")).behind ") "
  exact (((((harguments.append hkeep).behind a.kind.token).behind " (").append
    a.composed_partition).append a.composed_order).behind ")"

end Analytic

theorem GroupConcat.composed (g : GroupConcat ε) :
    Composed g.children fun f => (g.map f).text := by
  have hhead := Composed.before ("GROUP_CONCAT(" ++ Text.onlyIf g.distinct "DISTINCT ")
    (Arguments.composed false g.arguments)
  have horder := OrderKey.composed_clause " ORDER BY " g.orderBy
  exact ((hhead.append horder).behind
    (Text.ofOption g.separator fun s => " SEPARATOR " ++ Text.quoted s)).behind ")"

/-! ## Queries -/

theorem SelectItem.composed (item : SelectItem ε) :
    Composed item.children fun f => (item.map f).text := by
  cases item with
  | expr e label => exact (Composed.part e).behind _
  | _ => exact Composed.word _

theorem Select.composed_group (select : Select ε) :
    Composed select.groupBy fun f => (select.map f).groupText := by
  have hlist := Arguments.composed false select.groupBy
  exact Composed.unlessEmpty id (Composed.before " GROUP BY " hlist)

theorem Select.composed (select : Select ε) :
    Composed select.children fun f => (select.map f).text := by
  have hitems : Composed (select.items.flatMap SelectItem.children) fun f =>
      Text.commaSeparated ((select.items.map (SelectItem.map f)).map SelectItem.text) := by
    simp only [List.map_map]
    exact Composed.commaSeparated SelectItem.composed
  have hclause : ∀ (word : String) (o : Option ε), Composed o.toList fun f =>
      Text.ofOption (o.map f) fun e => word ++ e :=
    fun word o => Composed.ofOption_part fun e => Composed.before word (Composed.part e)
  have hhead := (Composed.before ("SELECT " ++ Text.onlyIf select.distinct "DISTINCT ")
    hitems).behind (Text.ofOption select.source fun table => " FROM " ++ table.text)
  exact ((((hhead.append (hclause " WHERE " select.condition)).append
    select.composed_group).append (hclause " HAVING " select.having)).append
    (OrderKey.composed_clause " ORDER BY " select.orderBy)).append (hclause " LIMIT " select.limit)

theorem Query.composed (query : Query ε) : Composed query.children fun f => (query.map f).text := by
  induction query with
  | plain select => exact select.composed
  | compound op all left right ihl ihr => exact (ihl.behind (op.joiner all)).append ihr

theorem CommonTable.composed (table : CommonTable ε) :
    Composed table.children fun f => (table.map f).text :=
  (Composed.before (table.name ++ columnsText table.columns ++ " AS (") table.query.composed).behind
    ")"

theorem SubQuery.composed (sub : SubQuery ε) : Composed sub.children fun f => (sub.map f).text := by
  have htables : Composed (sub.commonTables.flatMap CommonTable.children) fun f =>
      (sub.map f).withText := by
    refine Composed.unlessEmpty (fun h => h ▸ rfl) ((Composed.before "WITH " ?_).behind " ")
    simp only [SubQuery.map, List.map_map]
    exact Composed.commaSeparated CommonTable.composed
  exact ((Composed.before (Text.onlyIf sub.brackets "(") htables).append sub.query.composed).behind
    (Text.onlyIf sub.brackets ")")

theorem Items.composed (items : Items ε) : Composed items.children fun f => (items.map f).text := by
  cases items with
  | list values => exact Arguments.composed true values
  | rows lists =>
    have h : Composed (lists.flatMap id) fun f =>
        Text.commaSeparated (lists.map fun list => Arguments.text true (list.map f)) :=
      Composed.commaSeparated (Arguments.composed true)
    simp only [Items.map, Items.text, List.map_map]
    rwa [List.flatMap_id] at h
  | query sub => exact sub.composed

theorem Member.composed (join : OuterJoin) (member : Member ε) :
    Composed member.children fun f => (member.map f).text join := by
  cases member with
  | expr e => exact (Composed.part e).behind _
  | items is => exact is.composed

/-! ## Expressions -/

namespace Node

/-- The sub-expressions that are written, in their order. -/
def written : Node ε → List ε
  | analytic a => a.written
  | n => n.children

theorem composed (n : Node ε) : Composed n.written fun f => (n.map f).text := by
  have hpart := @Composed.part ε
  cases n with
  | binary left op right negated =>
    exact ((((Composed.before (negationText negated) (hpart left)).behind " ").behind
      op.token).behind " ").append (hpart right)
  | comparison left op right negated join =>
    have hleft := (Composed.before (negationText negated) (hpart left)).behind
      (Text.onlyIf join.marksLeft OuterJoin.mark)
    have hboth := (((hleft.behind " ").behind op.token).behind " ").append (hpart right)
    exact hboth.behind (Text.onlyIf join.marksRight OuterJoin.mark)
  | like left right negated ignoreCase escape =>
    exact (((((Composed.before (negationText negated) (hpart left)).behind " ").behind
      (likeWord ignoreCase)).behind " ").append (hpart right)).behind
      (Text.ofOption escape fun e => " ESCAPE " ++ Text.quoted e)
  | between e start stop negated =>
    exact (((((hpart e).behind (testNegationText negated)).behind " BETWEEN ").append
      (hpart start)).behind " AND ").append (hpart stop)
  | membership member items negated join =>
    exact (((member.composed join).behind (testNegationText negated)).behind " IN ").append
      items.composed
  | isNull e negated oneWord => exact (hpart e).behind (nullTest negated oneWord)
  | existence e negated => exact Composed.before (existenceTest negated) (hpart e)
  | not e => exact Composed.before "NOT " (hpart e)
  | signed sign e => exact Composed.before sign.token (hpart e)
  | brackets e negated =>
    exact Composed.before (negationText negated) ((Composed.before "(" (hpart e)).behind ")")
  | case c => exact c.composed
  | call c => exact c.composed
  | analytic a => exact a.composed
  | groupConcat g => exact g.composed
  | cast e type keyword =>
    cases keyword with
    | true =>
      exact (((Composed.before "CAST(" (hpart e)).behind " AS ").behind type.sql).behind ")"
    | false => exact ((hpart e).behind "::").behind type.sql
  | extract field e =>
    exact (Composed.before ("EXTRACT(" ++ field ++ " FROM ") (hpart e)).behind ")"
  | row name elements =>
    exact Composed.before (Text.ofOption name id) (Arguments.composed true elements)
  | values elements => exact Arguments.composed true elements
  | subQuery query => exact query.composed
  | allOf query => exact Composed.before "ALL " query.composed
  | anyOf word query => exact Composed.before (word.token ++ " ") query.composed
  | hierarchical start connect noCycle =>
    have hstart : Composed start.toList fun f =>
        Text.ofOption (start.map f) fun e => " START WITH " ++ e :=
      Composed.ofOption_part fun e => Composed.before " START WITH " (hpart e)
    exact ((hstart.behind " CONNECT BY ").behind (Text.onlyIf noCycle "NOCYCLE ")).append
      (hpart connect)
  | _ => exact Composed.word _

end Node

/-! ## Following what is written down the tree -/

namespace Analytic

theorem writtenArguments_map (f : ε → δ) (a : Analytic ε) :
    (a.map f).writtenArguments = a.writtenArguments.map f := by
  obtain ⟨name, kind, argument, offset, defaultValue, allColumns, distinct, ignoreNulls, keep,
    partitionBy, orderBy, frame⟩ := a
  cases argument <;> cases offset <;> cases defaultValue <;> rfl

theorem writtenOrder_map (f : ε → δ) (a : Analytic ε) :
    (a.map f).writtenOrder = a.writtenOrder.map f := by
  obtain ⟨name, kind, argument, offset, defaultValue, allColumns, distinct, ignoreNulls, keep,
    partitionBy, orderBy, frame⟩ := a
  cases orderBy with
  | nil => rfl
  | cons key rest =>
    simp [writtenOrder, map, List.flatMap_map, List.map_flatMap, Option.toList_map,
      OrderKey.children_map, Frame.children_map]

theorem written_map (f : ε → δ) (a : Analytic ε) : (a.map f).written = a.written.map f := by
  simp only [written, writtenArguments_map, writtenOrder_map, List.map_append]
  simp [map, Option.toList_map, List.flatMap_map, List.map_flatMap, Keep.children_map]

theorem written_subset (a : Analytic ε) : a.written ⊆ a.children := by
  obtain ⟨name, kind, argument, offset, defaultValue, allColumns, distinct, ignoreNulls, keep,
    partitionBy, orderBy, frame⟩ := a
  intro e he
  cases argument <;> cases offset <;> cases orderBy <;>
    simp_all [written, writtenArguments, writtenOrder, children] <;>
    grind

end Analytic

namespace Node

theorem written_map (f : ε → δ) (n : Node ε) : (n.map f).written = n.written.map f := by
  have hchildren := children_map f n
  cases n with
  | analytic a => exact a.written_map f
  | _ => exact hchildren

theorem written_subset (n : Node ε) : n.written ⊆ n.children := by
  cases n with
  | analytic a => exact a.written_subset
  | _ => exact List.Subset.refl _

end Node

/-- The nodes of a tree that are written, each before those in its sub-expressions. -/
def Expr.writtenNodes : Expr → List (Node Expr) :=
  Expr.para fun n => n.map Prod.fst :: n.written.flatMap Prod.snd

theorem Expr.writtenNodes_node (n : Node Expr) :
    (Expr.node n).writtenNodes = n :: n.written.flatMap Expr.writtenNodes := by
  have hfst : (Prod.fst ∘ fun e => (e, Expr.writtenNodes e)) = id := rfl
  rw [writtenNodes, para_node, Node.map_map, Node.written_map, List.flatMap_map, ← writtenNodes,
    hfst, Node.map_id, id]

end SqlText
