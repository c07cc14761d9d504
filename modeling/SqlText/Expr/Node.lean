import SqlText.Clause.Analytic
import SqlText.Clause.Call
import SqlText.Clause.Case
import SqlText.Clause.GroupConcat
import SqlText.Clause.Items
import SqlText.DataType
import SqlText.DocumentPath
import SqlText.Hint
import SqlText.Literal
import SqlText.Parameter

/-!
# The kinds of expressions

`Node ε` is one level of an expression whose immediate sub-expressions are of type `ε`. The tree of
expressions is its fixed point, and a rule for nodes is all that is needed to define a function on
trees.
-/

namespace SqlText

/-- One level of an expression. -/
inductive Node (ε : Type) where
  /-- Two operands and an operator. -/
  | binary (left : ε) (op : BinaryOp) (right : ε) (negated : Bool)
  /-- Two operands and a comparison, perhaps with a join mark. -/
  | comparison (left : ε) (op : ComparisonOp) (right : ε) (negated : Bool) (join : OuterJoin)
  /-- A text and a pattern. -/
  | like (left right : ε) (negated ignoreCase : Bool) (escape : Option String)
  /-- A value and the ends of a range. -/
  | between (expr start stop : ε) (negated : Bool)
  /-- A member and the items among which it is looked for. -/
  | membership (member : Member ε) (items : Items ε) (negated : Bool) (join : OuterJoin)
  /-- A test for null, in three words or in one. -/
  | isNull (expr : ε) (negated oneWord : Bool)
  /-- A test whether a query has rows. -/
  | existence (expr : ε) (negated : Bool)
  /-- A negation. -/
  | not (expr : ε)
  /-- An operand behind a sign. -/
  | signed (sign : Sign) (expr : ε)
  /-- An expression in brackets. -/
  | brackets (expr : ε) (negated : Bool)
  /-- A case distinction. -/
  | case (c : Case ε)
  /-- A function call. -/
  | call (c : Call ε)
  /-- An analytic function. -/
  | analytic (a : Analytic ε)
  /-- A concatenation of the values of a group. -/
  | groupConcat (g : GroupConcat ε)
  /-- A cast, written as a call or with two colons. -/
  | cast (expr : ε) (type : DataType) (keyword : Bool)
  /-- A part of a date or time. -/
  | extract (field : String) (expr : ε)
  /-- An interval of time. -/
  | interval (amount : String) (unit : Option String)
  /-- A row, perhaps with a name in front. -/
  | row (name : Option String) (elements : List ε)
  /-- A list of values in brackets. -/
  | values (elements : List ε)
  /-- A column. -/
  | column (column : Column)
  /-- A path into a document that a column holds. -/
  | document (column : Column) (path : List PathStep)
  /-- A literal. -/
  | literal (literal : Literal)
  /-- A bind parameter. -/
  | parameter (parameter : Parameter)
  /-- A variable of the session or, with two signs, of the system. -/
  | sessionVariable (name : String) (system : Bool)
  /-- A word that stands for a time, such as `CURRENT_DATE`. -/
  | timeKey (word : String)
  /-- A query as a value. -/
  | subQuery (query : SubQuery ε)
  /-- A comparison with all rows of a query. -/
  | allOf (query : SubQuery ε)
  /-- A comparison with some row of a query. -/
  | anyOf (word : AnyWord) (query : SubQuery ε)
  /-- A condition on the rows of a hierarchy. -/
  | hierarchical (start : Option ε) (connect : ε) (noCycle : Bool)
  /-- An optimizer hint. -/
  | hint (hint : Hint)
  deriving DecidableEq

namespace Node

variable {ε δ : Type}

/-- Applies a function to the immediate sub-expressions. -/
def map (f : ε → δ) : Node ε → Node δ
  | binary left op right negated => binary (f left) op (f right) negated
  | comparison left op right negated join => comparison (f left) op (f right) negated join
  | like left right negated ignoreCase escape => like (f left) (f right) negated ignoreCase escape
  | between expr start stop negated => between (f expr) (f start) (f stop) negated
  | membership member items negated join => membership (member.map f) (items.map f) negated join
  | isNull expr negated oneWord => isNull (f expr) negated oneWord
  | existence expr negated => existence (f expr) negated
  | not expr => not (f expr)
  | signed sign expr => signed sign (f expr)
  | brackets expr negated => brackets (f expr) negated
  | case c => case (c.map f)
  | call c => call (c.map f)
  | analytic a => analytic (a.map f)
  | groupConcat g => groupConcat (g.map f)
  | cast expr type keyword => cast (f expr) type keyword
  | extract field expr => extract field (f expr)
  | interval amount unit => interval amount unit
  | row name elements => row name (elements.map f)
  | values elements => values (elements.map f)
  | column c => column c
  | document c path => document c path
  | literal l => literal l
  | parameter p => parameter p
  | sessionVariable name system => sessionVariable name system
  | timeKey word => timeKey word
  | subQuery query => subQuery (query.map f)
  | allOf query => allOf (query.map f)
  | anyOf word query => anyOf word (query.map f)
  | hierarchical start connect noCycle => hierarchical (start.map f) (f connect) noCycle
  | hint h => hint h

/-- The immediate sub-expressions, in the order in which they are written. -/
def children : Node ε → List ε
  | binary left _ right _ => [left, right]
  | comparison left _ right _ _ => [left, right]
  | like left right _ _ _ => [left, right]
  | between expr start stop _ => [expr, start, stop]
  | membership member items _ _ => member.children ++ items.children
  | isNull expr _ _ => [expr]
  | existence expr _ => [expr]
  | not expr => [expr]
  | signed _ expr => [expr]
  | brackets expr _ => [expr]
  | case c => c.children
  | call c => c.children
  | analytic a => a.children
  | groupConcat g => g.children
  | cast expr _ _ => [expr]
  | extract _ expr => [expr]
  | interval _ _ => []
  | row _ elements => elements
  | values elements => elements
  | column _ => []
  | document _ _ => []
  | literal _ => []
  | parameter _ => []
  | sessionVariable _ _ => []
  | timeKey _ => []
  | subQuery query => query.children
  | allOf query => query.children
  | anyOf _ query => query.children
  | hierarchical start connect _ => start.toList ++ [connect]
  | hint _ => []

/-- A node without its sub-expressions. -/
def shape (n : Node ε) : Node Unit :=
  n.map fun _ => ()

end Node

end SqlText
