import SqlText.Expr.Text

/-!
# The layout of expressions

How a tree is rendered: the same pieces as in its text, with the grammar's own text told apart from
the texts of the tree and with the places where a query renderer takes over. The operand of a cast
is isolated from the query renderer, and so are the offsets of window frames.
-/

namespace SqlText

namespace Node

/-- The layout of an operator between two operands. -/
def infixed (negated : Bool) (left : Layout) (op : String) (right : Layout) : Layout :=
  .token (negationText negated) ++ left ++ .token (" " ++ op ++ " ") ++ right

/-- The layout of a node, given the layouts of its sub-expressions. -/
def layout : Node Layout → Layout
  | binary left op right negated => infixed negated left op.token right
  | comparison left op right negated join =>
    infixed negated (left ++ Layout.onlyIf join.marksLeft (.token OuterJoin.mark)) op.token
      (right ++ Layout.onlyIf join.marksRight (.token OuterJoin.mark))
  | like left right negated ignoreCase escape =>
    infixed negated left (likeWord ignoreCase) right ++
      Layout.ofOption escape fun e => .token " ESCAPE " ++ Layout.quoted e
  | between expr start stop negated =>
    expr ++ .token (testNegationText negated ++ " BETWEEN ") ++ start ++ .token " AND " ++ stop
  | membership member items negated join =>
    member.layout join ++ .token (testNegationText negated ++ " IN ") ++ items.layout
  | isNull expr negated oneWord => expr ++ .token (nullTest negated oneWord)
  | existence expr negated => .token (existenceTest negated) ++ expr
  | not expr => .token "NOT " ++ expr
  | signed sign expr => .token sign.token ++ expr
  | brackets expr negated => .token (negationText negated) ++ Layout.bracketed expr
  | case c => c.layout
  | call c => c.layout
  | analytic a => a.layout
  | groupConcat g => g.layout
  | cast expr type keyword =>
    if keyword then
      .token "CAST(" ++ .isolated expr ++ .token " AS " ++ type.layout ++ .token ")"
    else .isolated expr ++ .token "::" ++ type.layout
  | extract field expr =>
    .token "EXTRACT(" ++ .verbatim field ++ .token " FROM " ++ expr ++ .token ")"
  | interval amount unit =>
    .token "INTERVAL " ++ .verbatim amount ++
      Layout.ofOption unit fun u => .token " " ++ .verbatim u
  | row name elements => Layout.ofOption name .verbatim ++ Arguments.layout true elements
  | values elements => Arguments.layout true elements
  | column c => c.layout
  | document c path => c.layout ++ Layout.concat (path.map PathStep.layout)
  | literal l => l.layout
  | parameter p => p.layout
  | sessionVariable name system => .token (variableSign system) ++ .verbatim name
  | timeKey word => .verbatim word
  | subQuery query => query.layout
  | allOf query => .token "ALL " ++ query.layout
  | anyOf word query => .token (word.token ++ " ") ++ query.layout
  | hierarchical start connect noCycle =>
    Layout.ofOption start (fun e => .token " START WITH " ++ e) ++ .token " CONNECT BY " ++
      Layout.onlyIf noCycle (.token "NOCYCLE ") ++ connect
  | hint h => h.layout

end Node

/-- The layout of an expression. -/
def Expr.layout : Expr → Layout :=
  Expr.fold Node.layout

/-- The layout of a tree is its root's rule applied to the layouts of the parts. -/
theorem Expr.layout_node (n : Node Expr) : (Expr.node n).layout = (n.map Expr.layout).layout :=
  Expr.fold_node Node.layout n

end SqlText
