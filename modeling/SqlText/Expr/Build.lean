import SqlText.Decimal.Spelling
import SqlText.Expr

/-!
# Building expressions

Constructors for the common kinds of expressions, and modifiers that set a flag of an expression
which has it and leave every other expression as it is.
-/

namespace SqlText

namespace Expr

/-! ## Leaves -/

/-- A column without qualifier. -/
def column (name : String) : Expr :=
  .node (.column (Column.ofName name))

/-- A column behind the name of its table. -/
def qualifiedColumn (table name : String) : Expr :=
  .node (.column ((Column.ofName name).withTable (Table.ofName table)))

/-- A literal. -/
def literal (l : Literal) : Expr :=
  .node (.literal l)

/-- A whole number. -/
def long (value : Int64) : Expr :=
  literal (.long (toString value.toInt))

/-- A floating point number, always with a point or an exponent. -/
def double (value : Binary64) : Expr :=
  literal (.double value.spelling)

/-- A quoted text, which is taken as it is. -/
def string (value : String) : Expr :=
  literal (.string ⟨none, value⟩)

/-- The literal `NULL`. -/
def null : Expr :=
  literal .null

/-- The parameter `?`. -/
def positional : Expr :=
  .node (.parameter (.positional none))

/-- A parameter with a name. -/
def namedParameter (name : String) : Expr :=
  .node (.parameter (.named name none))

/-! ## Operators -/

/-- Two operands and an operator, not negated. -/
def binary (left : Expr) (op : BinaryOp) (right : Expr) : Expr :=
  .node (.binary left op right false)

/-- A comparison, not negated and without join mark. -/
def compare (left : Expr) (op : ComparisonOp) (right : Expr) : Expr :=
  .node (.comparison left op right false .absent)

/-- The sum. -/
def plus (left right : Expr) : Expr := left.binary .add right

/-- The difference. -/
def minus (left right : Expr) : Expr := left.binary .subtract right

/-- The conjunction. -/
def and (left right : Expr) : Expr := left.binary .and right

/-- The disjunction. -/
def or (left right : Expr) : Expr := left.binary .or right

/-- The test for equality. -/
def eq (left right : Expr) : Expr := left.compare .equals right

/-- The test for inequality, spelled in the standard way. -/
def notEq (left right : Expr) : Expr := left.compare (.notEquals .standard) right

/-- Whether the left side is less. -/
def lt (left right : Expr) : Expr := left.compare .less right

/-- Whether the left side is greater. -/
def gt (left right : Expr) : Expr := left.compare .greater right

/-- The negation, as an expression around its operand. -/
def not (e : Expr) : Expr := .node (.not e)

/-- The expression in brackets. -/
def inBrackets (e : Expr) : Expr := .node (.brackets e false)

/-- The operand behind a minus sign. -/
def negative (e : Expr) : Expr := .node (.signed .minus e)

/-- A cast written as a call. -/
def cast (e : Expr) (type : DataType) : Expr := .node (.cast e type true)

/-! ## Modifiers -/

/-- Negates the kinds of expressions that carry a negation of their own. -/
def withNot : Expr → Expr
  | .node (.binary left op right _) => .node (.binary left op right true)
  | .node (.comparison left op right _ join) => .node (.comparison left op right true join)
  | .node (.like left right _ ignoreCase escape) =>
    .node (.like left right true ignoreCase escape)
  | .node (.between e start stop _) => .node (.between e start stop true)
  | .node (.membership member items _ join) => .node (.membership member items true join)
  | .node (.isNull e _ oneWord) => .node (.isNull e true oneWord)
  | .node (.existence e _) => .node (.existence e true)
  | .node (.brackets e _) => .node (.brackets e true)
  | e => e

/-- Sets the join of comparisons and membership tests. -/
def withOuterJoin (join : OuterJoin) : Expr → Expr
  | .node (.comparison left op right negated _) =>
    .node (.comparison left op right negated join)
  | .node (.membership member items negated _) => .node (.membership member items negated join)
  | e => e

/-- Sets the escape text of pattern tests. -/
def withEscape (escape : String) : Expr → Expr
  | .node (.like left right negated ignoreCase _) =>
    .node (.like left right negated ignoreCase (some escape))
  | e => e

/-! ## Tests -/

/-- The test for null in three words. -/
def isNull (e : Expr) : Expr := .node (.isNull e false false)

/-- The negated test for null. -/
def isNotNull (e : Expr) : Expr := .node (.isNull e true false)

/-- The test whether a value lies in a range. -/
def between (e start stop : Expr) : Expr := .node (.between e start stop false)

/-- The test whether a value lies outside a range. -/
def notBetween (e start stop : Expr) : Expr := (e.between start stop).withNot

/-- The test whether a value is in a list. -/
def inList (e : Expr) (values : List Expr) : Expr :=
  .node (.membership (.expr e) (.list values) false .absent)

/-- The test whether a value is missing from a list. -/
def notInList (e : Expr) (values : List Expr) : Expr := (e.inList values).withNot

/-- The test whether a value is among the rows of a query. -/
def inSubQuery (e : Expr) (sub : SubQuery Expr) : Expr :=
  .node (.membership (.expr e) (.query sub) false .absent)

/-- The pattern test that minds case. -/
def like (e pattern : Expr) : Expr := .node (.like e pattern false false none)

/-- The pattern test that ignores case. -/
def ilike (e pattern : Expr) : Expr := .node (.like e pattern false true none)

/-- The test whether a query has rows. -/
def existence (sub : SubQuery Expr) : Expr :=
  .node (.existence (.node (.subQuery sub)) false)

end Expr

/-! ## Clauses as expressions -/

/-- A call is an expression. -/
def Call.toExpr (c : Call Expr) : Expr := .node (.call c)

/-- An analytic function is an expression. -/
def Analytic.toExpr (a : Analytic Expr) : Expr := .node (.analytic a)

/-- A sub-query is an expression. -/
def SubQuery.toExpr (sub : SubQuery Expr) : Expr := .node (.subQuery sub)

/-- A column is an expression. -/
def Column.toExpr (c : Column) : Expr := .node (.column c)

/-- A literal is an expression. -/
def Literal.toExpr (l : Literal) : Expr := .node (.literal l)

/-- A select is a query. -/
def Select.toQuery {ε : Type} (select : Select ε) : Query ε := .plain select

/-- A query in brackets is a sub-query. -/
def Query.toSubQuery {ε : Type} (query : Query ε) : SubQuery ε := SubQuery.ofQuery query

end SqlText
