import SqlText.Expr

/-!
# The strings of a tree

All strings that a tree holds, in the order of its fields, those included that are not written. A
string is told apart by the way in which it is written : as it is, or between quotes that the text
adds to it. The strings of a sub-expression are among those of the whole
(`forall_strings_children`, one lemma for each clause).
-/

namespace SqlText

/-- A string of a tree. -/
inductive TreeString where
  /-- Written as it is. -/
  | plain (text : String)
  /-- Written between quotes. -/
  | quoted (text : String)

/-- The string itself. -/
def TreeString.text : TreeString → String
  | plain text => text
  | quoted text => text

/-! ## Leaves of the tree -/

/-- The name of an alias. -/
def Alias.strings (label : Alias) : List TreeString := [.plain label.name]

/-- The names of a table, its schema and its alias included. -/
def Table.strings (table : Table) : List TreeString :=
  table.schema.toList.map .plain ++ .plain table.name :: table.label.toList.flatMap Alias.strings

/-- The names of the table, then that of the column. -/
def Column.strings (column : Column) : List TreeString :=
  column.table.toList.flatMap Table.strings ++ [.plain column.name]

/-- The key of a step; the operator is no string of the tree. -/
def PathStep.strings (step : PathStep) : List TreeString := [.plain step.key]

/-- The content of a hint. -/
def Hint.strings (hint : Hint) : List TreeString := [.plain hint.value]

/-- The marker is written as it is, the text between quotes. -/
def QuotedText.strings (q : QuotedText) : List TreeString :=
  q.marker.toList.map .plain ++ [.quoted q.value]

/-- Spellings and quoted texts; temporal values hold no strings. -/
def Literal.strings : Literal → List TreeString
  | long spelling => [.plain spelling]
  | double spelling => [.plain spelling]
  | hex spelling => [.plain spelling]
  | string value => value.strings
  | date _ => []
  | time _ => []
  | timestamp _ => []
  | dateTime _ value => [.quoted value]
  | null => []

/-- Names and type suffixes; indices are numbers. -/
def Parameter.strings : Parameter → List TreeString
  | positional _ => []
  | named name typeSuffix => .plain name :: typeSuffix.toList.map .plain
  | numeric _ => []
  | markup typeSuffix => typeSuffix.toList.map .plain

/-- The name of a custom type, at any depth of arrays. -/
def DataType.strings : DataType → List TreeString
  | array element => element.strings
  | custom name => [.plain name]
  | _ => []

/-! ## Clauses

The strings of a clause, given those of its sub-expressions. -/

/-- A key has no strings besides those of its expression. -/
def OrderKey.strings (key : OrderKey (List TreeString)) : List TreeString := key.expr

/-- The name of the ranking function, then the strings of the ordering. -/
def Keep.strings (keep : Keep (List TreeString)) : List TreeString :=
  .plain keep.name :: keep.orderBy.flatMap OrderKey.strings

/-- The strings of the offset, if there is one. -/
def FrameBound.strings : FrameBound (List TreeString) → List TreeString
  | unboundedPreceding => []
  | unboundedFollowing => []
  | currentRow => []
  | preceding offset => offset
  | following offset => offset

/-- The strings of the bounds. -/
def FrameExtent.strings : FrameExtent (List TreeString) → List TreeString
  | single bound => bound.strings
  | between start stop => start.strings ++ stop.strings

/-- A frame has no strings besides those of its bounds. -/
def Frame.strings (frame : Frame (List TreeString)) : List TreeString := frame.extent.strings

/-- The strings of the condition and of the result. -/
def When.strings (branch : When (List TreeString)) : List TreeString :=
  branch.condition ++ branch.result

/-- The strings of the operand, of the branches and of the alternative. -/
def Case.strings (c : Case (List TreeString)) : List TreeString :=
  c.operand.toList.flatten ++ c.branches.flatMap When.strings ++ c.otherwise.toList.flatten

/-- The name, the arguments, the field and the keep clause. -/
def Call.strings (call : Call (List TreeString)) : List TreeString :=
  .plain call.name :: call.arguments.toList.flatMap List.flatten ++ call.field.toList.map .plain ++
    call.keep.toList.flatMap Keep.strings

/-- The strings of all fields, those included that are not written. -/
def Analytic.strings (a : Analytic (List TreeString)) : List TreeString :=
  .plain a.name :: a.argument.toList.flatten ++ a.offset.toList.flatten ++
    a.defaultValue.toList.flatten ++ a.keep.toList.flatMap Keep.strings ++ a.partitionBy.flatten ++
    a.orderBy.flatMap OrderKey.strings ++ a.frame.toList.flatMap Frame.strings

/-- The strings of the arguments and of the ordering; the separator is quoted. -/
def GroupConcat.strings (g : GroupConcat (List TreeString)) : List TreeString :=
  g.arguments.flatten ++ g.orderBy.flatMap OrderKey.strings ++ g.separator.toList.map .quoted

/-- The names of the table of a star, or the expression and its alias. -/
def SelectItem.strings : SelectItem (List TreeString) → List TreeString
  | allColumns => []
  | tableColumns table => table.strings
  | expr e label => e ++ label.toList.flatMap Alias.strings

/-- The strings of the clauses and of the table that is selected from. -/
def Select.strings (select : Select (List TreeString)) : List TreeString :=
  select.items.flatMap SelectItem.strings ++ select.source.toList.flatMap Table.strings ++
    select.condition.toList.flatten ++ select.groupBy.flatten ++ select.having.toList.flatten ++
    select.orderBy.flatMap OrderKey.strings ++ select.limit.toList.flatten

/-- The strings of the selects from left to right. -/
def Query.strings : Query (List TreeString) → List TreeString
  | plain select => select.strings
  | compound _ _ left right => left.strings ++ right.strings

/-- The name, the columns and the strings of the query. -/
def CommonTable.strings (table : CommonTable (List TreeString)) : List TreeString :=
  .plain table.name :: table.columns.map .plain ++ table.query.strings

/-- The strings of the query, then those of its common tables. -/
def SubQuery.strings (sub : SubQuery (List TreeString)) : List TreeString :=
  sub.query.strings ++ sub.commonTables.flatMap CommonTable.strings

/-- The strings of the values, of all rows or of the query. -/
def Items.strings : Items (List TreeString) → List TreeString
  | list values => values.flatten
  | rows lists => lists.flatMap List.flatten
  | query sub => sub.strings

/-- The strings of the left side of a membership test. -/
def Member.strings : Member (List TreeString) → List TreeString
  | expr e => e
  | items is => is.strings

/-! ## Expressions -/

/-- The strings of a node, given those of its sub-expressions. -/
def Node.strings : Node (List TreeString) → List TreeString
  | binary left _ right _ => left ++ right
  | comparison left _ right _ _ => left ++ right
  | like left right _ _ escape => left ++ right ++ escape.toList.map .quoted
  | between expr start stop _ => expr ++ start ++ stop
  | membership member items _ _ => member.strings ++ items.strings
  | isNull expr _ _ => expr
  | existence expr _ => expr
  | not expr => expr
  | signed _ expr => expr
  | brackets expr _ => expr
  | case c => c.strings
  | call c => c.strings
  | analytic a => a.strings
  | groupConcat g => g.strings
  | cast expr type _ => expr ++ type.strings
  | extract field expr => .plain field :: expr
  | interval amount unit => .plain amount :: unit.toList.map .plain
  | row name elements => name.toList.map .plain ++ elements.flatten
  | values elements => elements.flatten
  | column c => c.strings
  | document c path => c.strings ++ path.flatMap PathStep.strings
  | literal l => l.strings
  | parameter p => p.strings
  | sessionVariable name _ => [.plain name]
  | timeKey word => [.plain word]
  | subQuery query => query.strings
  | allOf query => query.strings
  | anyOf _ query => query.strings
  | hierarchical start connect _ => start.toList.flatten ++ connect
  | hint h => h.strings

/-- The strings of an expression. -/
def Expr.strings : Expr → List TreeString :=
  Expr.fold Node.strings

theorem Expr.strings_node (n : Node Expr) :
    (Expr.node n).strings = (n.map Expr.strings).strings :=
  Expr.fold_node Node.strings n

/-! ## Strings of sub-expressions

What holds of all strings of a clause holds of the strings of its sub-expressions. -/

section SubExpressions

variable {ε : Type} {strings : ε → List TreeString} {P : TreeString → Prop}

theorem OrderKey.forall_strings_children {key : OrderKey ε}
    (h : ∀ s ∈ (key.map strings).strings, P s) : ∀ e ∈ key.children, ∀ s ∈ strings e, P s :=
  List.forall_mem_singleton.2 h

theorem Keep.forall_strings_children {keep : Keep ε}
    (h : ∀ s ∈ (keep.map strings).strings, P s) : ∀ e ∈ keep.children, ∀ s ∈ strings e, P s := by
  simp only [Keep.strings, Keep.map, List.forall_mem_cons, List.forall_mem_flatMap,
    List.forall_mem_map] at h
  exact List.forall_mem_flatMap.2 fun key hk => OrderKey.forall_strings_children (h.2 key hk)

theorem FrameBound.forall_strings_children {bound : FrameBound ε}
    (h : ∀ s ∈ (bound.map strings).strings, P s) : ∀ e ∈ bound.children, ∀ s ∈ strings e, P s := by
  cases bound with
  | preceding offset => exact List.forall_mem_singleton.2 h
  | following offset => exact List.forall_mem_singleton.2 h
  | _ => exact List.forall_mem_nil _

theorem FrameExtent.forall_strings_children {extent : FrameExtent ε}
    (h : ∀ s ∈ (extent.map strings).strings, P s) :
    ∀ e ∈ extent.children, ∀ s ∈ strings e, P s := by
  cases extent with
  | single bound => exact bound.forall_strings_children h
  | between start stop =>
    obtain ⟨hstart, hstop⟩ := List.forall_mem_append.1 h
    exact List.forall_mem_append.2
      ⟨start.forall_strings_children hstart, stop.forall_strings_children hstop⟩

theorem When.forall_strings_children {branch : When ε}
    (h : ∀ s ∈ (branch.map strings).strings, P s) :
    ∀ e ∈ branch.children, ∀ s ∈ strings e, P s := by
  obtain ⟨hcondition, hresult⟩ := List.forall_mem_append.1 h
  exact List.forall_mem_cons.2 ⟨hcondition, List.forall_mem_singleton.2 hresult⟩

theorem Case.forall_strings_children {c : Case ε}
    (h : ∀ s ∈ (c.map strings).strings, P s) : ∀ e ∈ c.children, ∀ s ∈ strings e, P s := by
  simp only [Case.strings, Case.map, List.forall_mem_append, List.forall_mem_flatten,
    List.forall_mem_flatMap, Option.toList_map, List.forall_mem_map] at h
  simp only [Case.children, List.forall_mem_append, List.forall_mem_flatMap]
  obtain ⟨⟨hoperand, hbranches⟩, hotherwise⟩ := h
  exact ⟨⟨hoperand, fun b hb => b.forall_strings_children (hbranches b hb)⟩, hotherwise⟩

theorem Call.forall_strings_children {call : Call ε}
    (h : ∀ s ∈ (call.map strings).strings, P s) : ∀ e ∈ call.children, ∀ s ∈ strings e, P s := by
  simp only [Call.strings, Call.map, List.forall_mem_append, List.forall_mem_cons,
    List.forall_mem_flatten, List.forall_mem_flatMap, Option.toList_map, List.forall_mem_map] at h
  simp only [Call.children, List.forall_mem_append, List.forall_mem_flatMap,
    List.forall_mem_flatten]
  obtain ⟨⟨⟨-, harguments⟩, -⟩, hkeep⟩ := h
  exact ⟨harguments, fun k hk => k.forall_strings_children (hkeep k hk)⟩

theorem Analytic.forall_strings_children {a : Analytic ε}
    (h : ∀ s ∈ (a.map strings).strings, P s) : ∀ e ∈ a.children, ∀ s ∈ strings e, P s := by
  simp only [Analytic.strings, Analytic.map, List.forall_mem_append, List.forall_mem_cons,
    List.forall_mem_flatten, List.forall_mem_flatMap, Option.toList_map, List.forall_mem_map] at h
  simp only [Analytic.children, List.forall_mem_append, List.forall_mem_flatMap]
  obtain ⟨⟨⟨⟨⟨⟨⟨-, hargument⟩, hoffset⟩, hdefault⟩, hkeep⟩, hpartition⟩, horder⟩, hframe⟩ := h
  exact ⟨⟨⟨⟨⟨⟨hargument, hoffset⟩, hdefault⟩, fun k hk => k.forall_strings_children (hkeep k hk)⟩,
    hpartition⟩, fun key hk => key.forall_strings_children (horder key hk)⟩,
    fun frame hf => frame.extent.forall_strings_children (hframe frame hf)⟩

theorem GroupConcat.forall_strings_children {g : GroupConcat ε}
    (h : ∀ s ∈ (g.map strings).strings, P s) : ∀ e ∈ g.children, ∀ s ∈ strings e, P s := by
  simp only [GroupConcat.strings, GroupConcat.map, List.forall_mem_append, List.forall_mem_flatten,
    List.forall_mem_flatMap, List.forall_mem_map] at h
  simp only [GroupConcat.children, List.forall_mem_append, List.forall_mem_flatMap]
  obtain ⟨⟨harguments, horder⟩, -⟩ := h
  exact ⟨harguments, fun key hk => key.forall_strings_children (horder key hk)⟩

theorem SelectItem.forall_strings_children {item : SelectItem ε}
    (h : ∀ s ∈ (item.map strings).strings, P s) : ∀ e ∈ item.children, ∀ s ∈ strings e, P s := by
  cases item with
  | expr e label => exact List.forall_mem_singleton.2 (List.forall_mem_append.1 h).1
  | _ => exact List.forall_mem_nil _

theorem Select.forall_strings_children {select : Select ε}
    (h : ∀ s ∈ (select.map strings).strings, P s) :
    ∀ e ∈ select.children, ∀ s ∈ strings e, P s := by
  simp only [Select.strings, Select.map, List.forall_mem_append, List.forall_mem_flatten,
    List.forall_mem_flatMap, Option.toList_map, List.forall_mem_map] at h
  simp only [Select.children, List.forall_mem_append, List.forall_mem_flatMap]
  obtain ⟨⟨⟨⟨⟨⟨hitems, -⟩, hcondition⟩, hgroup⟩, hhaving⟩, horder⟩, hlimit⟩ := h
  exact ⟨⟨⟨⟨⟨fun item hi => item.forall_strings_children (hitems item hi), hcondition⟩, hgroup⟩,
    hhaving⟩, fun key hk => key.forall_strings_children (horder key hk)⟩, hlimit⟩

theorem Query.forall_strings_children {query : Query ε}
    (h : ∀ s ∈ (query.map strings).strings, P s) :
    ∀ e ∈ query.children, ∀ s ∈ strings e, P s := by
  induction query with
  | plain select => exact select.forall_strings_children h
  | compound op all left right ihl ihr =>
    obtain ⟨hleft, hright⟩ := List.forall_mem_append.1 h
    exact List.forall_mem_append.2 ⟨ihl hleft, ihr hright⟩

theorem SubQuery.forall_strings_children {sub : SubQuery ε}
    (h : ∀ s ∈ (sub.map strings).strings, P s) : ∀ e ∈ sub.children, ∀ s ∈ strings e, P s := by
  simp only [SubQuery.strings, SubQuery.map, CommonTable.strings, CommonTable.map,
    List.forall_mem_append, List.forall_mem_flatMap, List.forall_mem_map] at h
  simp only [SubQuery.children, List.forall_mem_append, List.forall_mem_flatMap]
  obtain ⟨hquery, htables⟩ := h
  exact ⟨fun table ht => table.query.forall_strings_children (htables table ht).2,
    sub.query.forall_strings_children hquery⟩

theorem Items.forall_strings_children {items : Items ε}
    (h : ∀ s ∈ (items.map strings).strings, P s) : ∀ e ∈ items.children, ∀ s ∈ strings e, P s := by
  cases items with
  | list values => exact List.forall_mem_map.1 (List.forall_mem_flatten.1 h)
  | rows lists =>
    refine List.forall_mem_flatten.2 fun list hl => ?_
    have hlist := List.forall_mem_map.1 (List.forall_mem_flatMap.1 h) list hl
    exact List.forall_mem_map.1 (List.forall_mem_flatten.1 hlist)
  | query sub => exact sub.forall_strings_children h

theorem Member.forall_strings_children {member : Member ε}
    (h : ∀ s ∈ (member.map strings).strings, P s) :
    ∀ e ∈ member.children, ∀ s ∈ strings e, P s := by
  cases member with
  | expr e => exact List.forall_mem_singleton.2 h
  | items is => exact is.forall_strings_children h

theorem Node.forall_strings_children {n : Node ε}
    (h : ∀ s ∈ (n.map strings).strings, P s) : ∀ e ∈ n.children, ∀ s ∈ strings e, P s := by
  cases n with
  | membership member items negated join =>
    obtain ⟨hmember, hitems⟩ := List.forall_mem_append.1 h
    exact List.forall_mem_append.2
      ⟨member.forall_strings_children hmember, items.forall_strings_children hitems⟩
  | case c => exact c.forall_strings_children h
  | call c => exact c.forall_strings_children h
  | analytic a => exact a.forall_strings_children h
  | groupConcat g => exact g.forall_strings_children h
  | row name elements =>
    exact List.forall_mem_map.1 (List.forall_mem_flatten.1 (List.forall_mem_append.1 h).2)
  | values elements => exact List.forall_mem_map.1 (List.forall_mem_flatten.1 h)
  | subQuery query => exact query.forall_strings_children h
  | allOf query => exact query.forall_strings_children h
  | anyOf word query => exact query.forall_strings_children h
  | hierarchical start connect noCycle =>
    simp only [Node.strings, Node.map, List.forall_mem_append, List.forall_mem_flatten,
      Option.toList_map, List.forall_mem_map] at h
    exact List.forall_mem_append.2 ⟨h.1, List.forall_mem_singleton.2 h.2⟩
  | _ => grind [Node.strings, Node.map, Node.children]

end SubExpressions

end SqlText
