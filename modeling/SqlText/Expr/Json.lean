import SqlText.Expr

/-!
# The JSON form of expressions

A node is an object with one member, whose key is the kind of the node. Writing gives every field;
reading is as lenient as the combinators of `SqlText.Json.Decoder` are.
-/

namespace SqlText

namespace Node

variable {ε : Type}

/-! ## Writing -/

/-- The JSON form of a node, given the JSON forms of its sub-expressions. -/
def encode : Node Json → Json
  | binary left op right negated =>
    .tagged "Binary"
      (.obj [("left", left), ("op", op.encode), ("right", right), ("not", .bool negated)])
  | comparison left op right negated join =>
    .tagged "Comparison"
      (.obj [("left", left), ("op", op.encode), ("right", right), ("not", .bool negated),
        ("oracle_join", join.encode)])
  | like left right negated ignoreCase escape =>
    .tagged "Like"
      (.obj [("left", left), ("right", right), ("not", .bool negated),
        ("case_insensitive", .bool ignoreCase), ("escape", .ofText? escape)])
  | between expr start stop negated =>
    .tagged "Between"
      (.obj [("expr", expr), ("start", start), ("end", stop), ("not", .bool negated)])
  | membership member items negated join =>
    .tagged "In"
      (.obj [("left", member.encode), ("right", items.encode), ("not", .bool negated),
        ("oracle_join", join.encode)])
  | isNull expr negated oneWord =>
    .tagged "IsNull"
      (.obj [("expr", expr), ("not", .bool negated), ("use_isnull", .bool oneWord)])
  | existence expr negated => .tagged "Exists" (.obj [("expr", expr), ("not", .bool negated)])
  | not expr => .tagged "Not" expr
  | signed sign expr => .tagged "Signed" (.obj [("sign", sign.encode), ("expr", expr)])
  | brackets expr negated => .tagged "Parenthesis" (.obj [("expr", expr), ("not", .bool negated)])
  | case c => .tagged "Case" c.encode
  | call c => .tagged "Function" c.encode
  | analytic a => .tagged "Analytic" a.encode
  | groupConcat g => .tagged "GroupConcat" g.encode
  | cast expr type keyword =>
    .tagged "Cast"
      (.obj [("expr", expr), ("data_type", type.encode), ("use_cast_keyword", .bool keyword)])
  | extract field expr => .tagged "Extract" (.obj [("field", .str field), ("expr", expr)])
  | interval amount unit =>
    .tagged "Interval" (.obj [("parameter", .str amount), ("interval_type", .ofText? unit)])
  | row name elements => .tagged "Row" (.obj [("name", .ofText? name), ("exprs", .arr elements)])
  | values elements => .tagged "ValueList" (Arguments.encode elements)
  | column c => .tagged "Column" c.encode
  | document c path =>
    .tagged "Json" (.obj [("column", c.encode), ("path", .arr (path.map PathStep.encode))])
  | literal l => .tagged "Literal" l.encode
  | parameter p => .tagged "Parameter" p.encode
  | sessionVariable name system =>
    .tagged "UserVariable" (.obj [("name", .str name), ("double_at", .bool system)])
  | timeKey word => .tagged "TimeKey" (.str word)
  | subQuery query => .tagged "SubSelect" query.encode
  | allOf query => .tagged "AllComparison" query.encode
  | anyOf word query =>
    .tagged "AnyComparison" (.obj [("kind", word.encode), ("sub_select", query.encode)])
  | hierarchical start connect noCycle =>
    .tagged "Hierarchical"
      (.obj [("start_with", .ofOption start), ("connect_by", connect),
        ("no_cycle", .bool noCycle)])
  | hint h => .tagged "Hint" h.encode

/-! ## Reading -/

section Decode

variable (expr : Decoder ε)

/-- Reads the operands, the operator and the negation of a binary operation. -/
def decodeBinary : Decoder (Node ε) :=
  Decoder.fields fun given => do
    return binary (← given.required "left" expr) (← given.required "op" BinaryOp.decode)
      (← given.required "right" expr) (← given.required "not" Decoder.bool)

/-- Reads a comparison, of which the join has to be named even if there is none. -/
def decodeComparison : Decoder (Node ε) :=
  Decoder.fields fun given => do
    return comparison (← given.required "left" expr) (← given.required "op" ComparisonOp.decode)
      (← given.required "right" expr) (← given.required "not" Decoder.bool)
      (← given.required "oracle_join" OuterJoin.decode)

/-- Reads a pattern test, of which only the escape character may be absent. -/
def decodeLike : Decoder (Node ε) :=
  Decoder.fields fun given => do
    return like (← given.required "left" expr) (← given.required "right" expr)
      (← given.required "not" Decoder.bool) (← given.required "case_insensitive" Decoder.bool)
      (← given.optional "escape" Decoder.string)

/-- Reads an interval test: the expression, the two ends and the negation. -/
def decodeBetween : Decoder (Node ε) :=
  Decoder.fields fun given => do
    return between (← given.required "expr" expr) (← given.required "start" expr)
      (← given.required "end" expr) (← given.required "not" Decoder.bool)

/-- Reads a membership test, whose two sides have forms of their own. -/
def decodeMembership : Decoder (Node ε) :=
  Decoder.fields fun given => do
    return membership (← given.required "left" (Member.decode expr))
      (← given.required "right" (Items.decode expr)) (← given.required "not" Decoder.bool)
      (← given.required "oracle_join" OuterJoin.decode)

/-- Reads a test for null and which of its two spellings is used. -/
def decodeIsNull : Decoder (Node ε) :=
  Decoder.fields fun given => do
    return isNull (← given.required "expr" expr) (← given.required "not" Decoder.bool)
      (← given.required "use_isnull" Decoder.bool)

/-- Reads an existence test. -/
def decodeExistence : Decoder (Node ε) :=
  Decoder.fields fun given => do
    return existence (← given.required "expr" expr) (← given.required "not" Decoder.bool)

/-- Reads a sign and its operand. -/
def decodeSigned : Decoder (Node ε) :=
  Decoder.fields fun given => do
    return signed (← given.required "sign" Sign.decode) (← given.required "expr" expr)

/-- Reads an expression in brackets, which may be negated. -/
def decodeBrackets : Decoder (Node ε) :=
  Decoder.fields fun given => do
    return brackets (← given.required "expr" expr) (← given.required "not" Decoder.bool)

/-- Reads a cast and whether it is spelled with the keyword. -/
def decodeCast : Decoder (Node ε) :=
  Decoder.fields fun given => do
    return cast (← given.required "expr" expr) (← given.required "data_type" DataType.decode)
      (← given.required "use_cast_keyword" Decoder.bool)

/-- Reads the extraction of a field of a date or a time. -/
def decodeExtract : Decoder (Node ε) :=
  Decoder.fields fun given => do
    return extract (← given.required "field" Decoder.string) (← given.required "expr" expr)

/-- Reads an interval, of which the unit may be absent. -/
def decodeInterval : Decoder (Node ε) :=
  Decoder.fields fun given => do
    return interval (← given.required "parameter" Decoder.string)
      (← given.optional "interval_type" Decoder.string)

/-- Reads the elements of a row, whose name may be absent. -/
def decodeRow : Decoder (Node ε) :=
  Decoder.fields fun given => do
    return row (← given.optional "name" Decoder.string)
      (← given.required "exprs" (Decoder.list expr))

/-- Reads a column and the path into the document that it holds. -/
def decodeDocument : Decoder (Node ε) :=
  Decoder.fields fun given => do
    return document (← given.required "column" Column.decode)
      (← given.required "path" (Decoder.list PathStep.decode))

/-- Reads a session variable and whether it is one of the system. -/
def decodeSessionVariable : Decoder (Node ε) :=
  Decoder.fields fun given => do
    return sessionVariable (← given.required "name" Decoder.string)
      (← given.required "double_at" Decoder.bool)

/-- Reads an existential comparison with a query and the word for it. -/
def decodeAnyOf : Decoder (Node ε) :=
  Decoder.fields fun given => do
    return anyOf (← given.required "kind" AnyWord.decode)
      (← given.required "sub_select" (SubQuery.decode expr))

/-- Reads a hierarchical condition, of which the start may be absent. -/
def decodeHierarchical : Decoder (Node ε) :=
  Decoder.fields fun given => do
    return hierarchical (← given.optional "start_with" expr) (← given.required "connect_by" expr)
      (← given.required "no_cycle" Decoder.bool)

/-- Reads a node, given a reading of its sub-expressions. -/
def decode : Decoder (Node ε) :=
  Decoder.tagged fun tag given =>
    match tag with
    | "Binary" => Decoder.payload (decodeBinary expr) given
    | "Comparison" => Decoder.payload (decodeComparison expr) given
    | "Like" => Decoder.payload (decodeLike expr) given
    | "Between" => Decoder.payload (decodeBetween expr) given
    | "In" => Decoder.payload (decodeMembership expr) given
    | "IsNull" => Decoder.payload (decodeIsNull expr) given
    | "Exists" => Decoder.payload (decodeExistence expr) given
    | "Not" => (Decoder.payload expr given).map not
    | "Signed" => Decoder.payload (decodeSigned expr) given
    | "Parenthesis" => Decoder.payload (decodeBrackets expr) given
    | "Case" => (Decoder.payload (Case.decode expr) given).map case
    | "Function" => (Decoder.payload (Call.decode expr) given).map call
    | "Analytic" => (Decoder.payload (Analytic.decode expr) given).map analytic
    | "GroupConcat" => (Decoder.payload (GroupConcat.decode expr) given).map groupConcat
    | "Cast" => Decoder.payload (decodeCast expr) given
    | "Extract" => Decoder.payload (decodeExtract expr) given
    | "Interval" => Decoder.payload decodeInterval given
    | "Row" => Decoder.payload (decodeRow expr) given
    | "ValueList" => (Decoder.payload (Arguments.decode expr) given).map values
    | "Column" => (Decoder.payload Column.decode given).map column
    | "Json" => Decoder.payload decodeDocument given
    | "Literal" => (Decoder.payload Literal.decode given).map literal
    | "Parameter" => (Decoder.payload Parameter.decode given).map parameter
    | "UserVariable" => Decoder.payload decodeSessionVariable given
    | "TimeKey" => (Decoder.payload Decoder.string given).map timeKey
    | "SubSelect" => (Decoder.payload (SubQuery.decode expr) given).map subQuery
    | "AllComparison" => (Decoder.payload (SubQuery.decode expr) given).map allOf
    | "AnyComparison" => Decoder.payload (decodeAnyOf expr) given
    | "Hierarchical" => Decoder.payload (decodeHierarchical expr) given
    | "Hint" => (Decoder.payload Hint.decode given).map hint
    | _ => none

end Decode

end Node

namespace Expr

/-- The JSON form of an expression. -/
def toJson : Expr → Json :=
  fold Node.encode

/-- The JSON form of a tree is its root's rule applied to the JSON forms of the parts. -/
theorem toJson_node (n : Node Expr) : (node n).toJson = (n.map toJson).encode :=
  fold_node Node.encode n

/-- Reads an expression, given a reading of its immediate sub-expressions. -/
def decodeStep (self : Decoder Expr) : Decoder Expr :=
  fun j => (Node.decode self j).map node

/-- Reads an expression. -/
def ofJson? : Decoder Expr :=
  Decoder.fix decodeStep

end Expr

end SqlText
