import SqlText.Expr

/-!
# The text of expressions

The SQL text of a tree, by plain concatenation: each kind of node puts the texts of its parts
together in one way, which depends on nothing outside the node. This is the reference that every
rendering is measured by. Trees are written as they are; nothing is normalised or escaped.
-/

namespace SqlText

/-- The word in front of a negated construct. -/
def negationText (negated : Bool) : String :=
  Text.onlyIf negated "NOT "

/-- The word in front of a negated test. -/
def testNegationText (negated : Bool) : String :=
  Text.onlyIf negated " NOT"

namespace Node

/-- The words of a test for null. -/
def nullTest (negated oneWord : Bool) : String :=
  match oneWord, negated with
  | true, true => " NOT ISNULL"
  | true, false => " ISNULL"
  | false, true => " IS NOT NULL"
  | false, false => " IS NULL"

/-- The words of a test for existence. -/
def existenceTest (negated : Bool) : String :=
  if negated then "NOT EXISTS " else "EXISTS "

/-- The pattern operator that minds or ignores case. -/
def likeWord (ignoreCase : Bool) : String :=
  if ignoreCase then "ILIKE" else "LIKE"

/-- The sign in front of a variable. -/
def variableSign (system : Bool) : String :=
  if system then "@@" else "@"

/-- The text of a node, given the texts of its sub-expressions. -/
def text : Node String → String
  | binary left op right negated => negationText negated ++ left ++ " " ++ op.token ++ " " ++ right
  | comparison left op right negated join =>
    negationText negated ++ left ++ Text.onlyIf join.marksLeft OuterJoin.mark ++ " " ++
      op.token ++ " " ++ right ++ Text.onlyIf join.marksRight OuterJoin.mark
  | like left right negated ignoreCase escape =>
    negationText negated ++ left ++ " " ++ likeWord ignoreCase ++ " " ++ right ++
      Text.ofOption escape fun e => " ESCAPE " ++ Text.quoted e
  | between expr start stop negated =>
    expr ++ testNegationText negated ++ " BETWEEN " ++ start ++ " AND " ++ stop
  | membership member items negated join =>
    member.text join ++ testNegationText negated ++ " IN " ++ items.text
  | isNull expr negated oneWord => expr ++ nullTest negated oneWord
  | existence expr negated => existenceTest negated ++ expr
  | not expr => "NOT " ++ expr
  | signed sign expr => sign.token ++ expr
  | brackets expr negated => negationText negated ++ Text.bracketed expr
  | case c => c.text
  | call c => c.text
  | analytic a => a.text
  | groupConcat g => g.text
  | cast expr type keyword =>
    if keyword then "CAST(" ++ expr ++ " AS " ++ type.sql ++ ")" else expr ++ "::" ++ type.sql
  | extract field expr => "EXTRACT(" ++ field ++ " FROM " ++ expr ++ ")"
  | interval amount unit => "INTERVAL " ++ amount ++ Text.ofOption unit fun u => " " ++ u
  | row name elements => Text.ofOption name id ++ Arguments.text true elements
  | values elements => Arguments.text true elements
  | column c => c.text
  | document c path => c.text ++ String.join (path.map PathStep.text)
  | literal l => l.text
  | parameter p => p.text
  | sessionVariable name system => variableSign system ++ name
  | timeKey word => word
  | subQuery query => query.text
  | allOf query => "ALL " ++ query.text
  | anyOf word query => word.token ++ " " ++ query.text
  | hierarchical start connect noCycle =>
    Text.ofOption start (fun e => " START WITH " ++ e) ++ " CONNECT BY " ++
      Text.onlyIf noCycle "NOCYCLE " ++ connect
  | hint h => h.text

end Node

/-- The SQL text of an expression. -/
def Expr.sql : Expr → String :=
  Expr.fold Node.text

/-- The text of a tree is its root's rule applied to the texts of the parts. -/
theorem Expr.sql_node (n : Node Expr) : (Expr.node n).sql = (n.map Expr.sql).text :=
  Expr.fold_node Node.text n

end SqlText
