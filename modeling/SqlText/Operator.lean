import SqlText.Json.Decoder

/-!
# Operators

The operators of expressions, each with its spelling in SQL (`token`) and its tag in JSON (`tag`).
-/

namespace SqlText

/-! ## Pattern matching -/

/-- Matching a regular expression, spelled with tildes. -/
inductive PatternOp where
  | isMatch
  | isMatchIgnoringCase
  | noMatch
  | noMatchIgnoringCase
  deriving DecidableEq

namespace PatternOp

/-- The operators that a tag can name. -/
def all : List PatternOp :=
  [isMatch, isMatchIgnoringCase, noMatch, noMatchIgnoringCase]

/-- Tildes, with a star to ignore case and a bang for the negation. -/
def token : PatternOp → String
  | isMatch => "~"
  | isMatchIgnoringCase => "~*"
  | noMatch => "!~"
  | noMatchIgnoringCase => "!~*"

/-- The tag of a pattern operator in JSON. -/
def tag : PatternOp → String
  | isMatch => "Match"
  | isMatchIgnoringCase => "MatchCaseInsensitive"
  | noMatch => "NotMatch"
  | noMatchIgnoringCase => "NotMatchCaseInsensitive"

/-- A pattern operator is exchanged as its bare tag. -/
def encode (op : PatternOp) : Json := .str op.tag

/-- Reads a pattern operator by its tag. -/
def decode : Decoder PatternOp := Decoder.oneOf all tag

end PatternOp

/-- Matching a regular expression, spelled as a word. -/
inductive RegexpWord where
  | regexp
  | regexpBinary
  | rlike
  deriving DecidableEq

namespace RegexpWord

/-- The words that a tag can name. -/
def all : List RegexpWord := [regexp, regexpBinary, rlike]

/-- The word, or two words, between the text and the pattern. -/
def token : RegexpWord → String
  | regexp => "REGEXP"
  | regexpBinary => "REGEXP BINARY"
  | rlike => "RLIKE"

/-- The tag of a word in JSON. -/
def tag : RegexpWord → String
  | regexp => "Regexp"
  | regexpBinary => "RegexpBinary"
  | rlike => "Rlike"

/-- A word is exchanged as its bare tag. -/
def encode (op : RegexpWord) : Json := .str op.tag

/-- Reads a word by its tag. -/
def decode : Decoder RegexpWord := Decoder.oneOf all tag

end RegexpWord

/-! ## Documents -/

/-- Operators on JSON documents. -/
inductive DocumentOp where
  | arrow
  | longArrow
  | hashArrow
  | hashLongArrow
  | contains
  | containedBy
  | keyExists
  | keyExistsAny
  | keyExistsAll
  | concat
  | minus
  | hashMinus
  deriving DecidableEq

namespace DocumentOp

/-- The operators that a tag can name. -/
def all : List DocumentOp :=
  [arrow, longArrow, hashArrow, hashLongArrow, contains, containedBy, keyExists, keyExistsAny,
    keyExistsAll, concat, minus, hashMinus]

/-- The spelling of a document operator, in a path as well as between two operands. -/
def token : DocumentOp → String
  | arrow => "->"
  | longArrow => "->>"
  | hashArrow => "#>"
  | hashLongArrow => "#>>"
  | contains => "@>"
  | containedBy => "<@"
  | keyExists => "?"
  | keyExistsAny => "?|"
  | keyExistsAll => "?&"
  | concat => "||"
  | minus => "-"
  | hashMinus => "#-"

/-- The tag of a document operator in JSON. -/
def tag : DocumentOp → String
  | arrow => "Arrow"
  | longArrow => "LongArrow"
  | hashArrow => "HashArrow"
  | hashLongArrow => "HashLongArrow"
  | contains => "Contains"
  | containedBy => "ContainedBy"
  | keyExists => "Exists"
  | keyExistsAny => "ExistsAny"
  | keyExistsAll => "ExistsAll"
  | concat => "Concat"
  | minus => "Minus"
  | hashMinus => "HashMinus"

/-- A document operator is exchanged as its bare tag. -/
def encode (op : DocumentOp) : Json := .str op.tag

/-- Reads a document operator by its tag. -/
def decode : Decoder DocumentOp := Decoder.oneOf all tag

end DocumentOp

/-! ## Binary operators -/

/-- Operators that stand between two operands and take no join mark. -/
inductive BinaryOp where
  | add
  | subtract
  | multiply
  | divide
  | modulo
  | and
  | or
  | concat
  | bitwiseAnd
  | bitwiseOr
  | bitwiseXor
  | leftShift
  | rightShift
  | pattern (op : PatternOp)
  | regexp (op : RegexpWord)
  | document (op : DocumentOp)
  deriving DecidableEq

namespace BinaryOp

/-- The spelling of a binary operator; concatenation is spelled alike for texts and documents. -/
def token : BinaryOp → String
  | add => "+"
  | subtract => "-"
  | multiply => "*"
  | divide => "/"
  | modulo => "%"
  | and => "AND"
  | or => "OR"
  | concat => "||"
  | bitwiseAnd => "&"
  | bitwiseOr => "|"
  | bitwiseXor => "^"
  | leftShift => "<<"
  | rightShift => ">>"
  | pattern op => op.token
  | regexp op => op.token
  | document op => op.token

/-- The JSON form: a bare tag, or a tag for the family with the operator under it. -/
def encode : BinaryOp → Json
  | add => .str "Add"
  | subtract => .str "Subtract"
  | multiply => .str "Multiply"
  | divide => .str "Divide"
  | modulo => .str "Modulo"
  | and => .str "And"
  | or => .str "Or"
  | concat => .str "Concat"
  | bitwiseAnd => .str "BitwiseAnd"
  | bitwiseOr => .str "BitwiseOr"
  | bitwiseXor => .str "BitwiseXor"
  | leftShift => .str "LeftShift"
  | rightShift => .str "RightShift"
  | pattern op => .tagged "Regexp" op.encode
  | regexp op => .tagged "MySqlRegexp" op.encode
  | document op => .tagged "Json" op.encode

/-- Reads a binary operator by its tag, and one of a family by the tag under that. -/
def decode : Decoder BinaryOp :=
  Decoder.tagged fun tag given =>
    match tag with
    | "Add" => Decoder.bare add given
    | "Subtract" => Decoder.bare subtract given
    | "Multiply" => Decoder.bare multiply given
    | "Divide" => Decoder.bare divide given
    | "Modulo" => Decoder.bare modulo given
    | "And" => Decoder.bare and given
    | "Or" => Decoder.bare or given
    | "Concat" => Decoder.bare concat given
    | "BitwiseAnd" => Decoder.bare bitwiseAnd given
    | "BitwiseOr" => Decoder.bare bitwiseOr given
    | "BitwiseXor" => Decoder.bare bitwiseXor given
    | "LeftShift" => Decoder.bare leftShift given
    | "RightShift" => Decoder.bare rightShift given
    | "Regexp" => (Decoder.payload PatternOp.decode given).map pattern
    | "MySqlRegexp" => (Decoder.payload RegexpWord.decode given).map regexp
    | "Json" => (Decoder.payload DocumentOp.decode given).map document
    | _ => none

end BinaryOp

/-! ## Comparisons -/

/-- The two spellings of inequality. -/
inductive InequalitySign where
  | standard
  | bang
  deriving DecidableEq

namespace InequalitySign

instance : Inhabited InequalitySign := ⟨standard⟩

/-- The spellings that a tag can name. -/
def all : List InequalitySign := [standard, bang]

/-- The tag of a spelling in JSON. -/
def tag : InequalitySign → String
  | standard => "Standard"
  | bang => "Bang"

/-- A spelling is exchanged as its bare tag. -/
def encode (sign : InequalitySign) : Json := .str sign.tag

/-- Reads a spelling by its tag. -/
def decode : Decoder InequalitySign := Decoder.oneOf all tag

end InequalitySign

/-- Comparison operators, whose operands may carry a join mark. -/
inductive ComparisonOp where
  | equals
  | notEquals (sign : InequalitySign)
  | greater
  | greaterOrEqual
  | less
  | lessOrEqual
  | fullTextMatch
  deriving DecidableEq

namespace ComparisonOp

/-- The spelling of a comparison; inequality is spelled as its sign says. -/
def token : ComparisonOp → String
  | equals => "="
  | notEquals .standard => "<>"
  | notEquals .bang => "!="
  | greater => ">"
  | greaterOrEqual => ">="
  | less => "<"
  | lessOrEqual => "<="
  | fullTextMatch => "@@"

/-- The JSON form: a bare tag, but for inequality, which has its sign under the tag. -/
def encode : ComparisonOp → Json
  | equals => .str "Equals"
  | notEquals sign => .tagged "NotEquals" sign.encode
  | greater => .str "GreaterThan"
  | greaterOrEqual => .str "GreaterThanOrEqual"
  | less => .str "LessThan"
  | lessOrEqual => .str "LessThanOrEqual"
  | fullTextMatch => .str "Matches"

/-- Reads a comparison by its tag; inequality needs its sign. -/
def decode : Decoder ComparisonOp :=
  Decoder.tagged fun tag given =>
    match tag with
    | "Equals" => Decoder.bare equals given
    | "NotEquals" => (Decoder.payload InequalitySign.decode given).map notEquals
    | "GreaterThan" => Decoder.bare greater given
    | "GreaterThanOrEqual" => Decoder.bare greaterOrEqual given
    | "LessThan" => Decoder.bare less given
    | "LessThanOrEqual" => Decoder.bare lessOrEqual given
    | "Matches" => Decoder.bare fullTextMatch given
    | _ => none

end ComparisonOp

/-- The outer join that the mark `(+)` expresses. The mark stands on the side opposite to the one
named: a right join marks the left operand, a left join the right one. -/
inductive OuterJoin where
  | absent
  | left
  | right
  deriving DecidableEq

namespace OuterJoin

instance : Inhabited OuterJoin := ⟨absent⟩

/-- The text of the mark. -/
def mark : String := "(+)"

/-- Whether the left operand carries the mark. -/
def marksLeft (join : OuterJoin) : Bool :=
  join = right

/-- Whether the right operand carries the mark. -/
def marksRight (join : OuterJoin) : Bool :=
  join = left

/-- The joins that a tag can name, the absence of one included. -/
def all : List OuterJoin := [absent, left, right]

/-- The tag of a join in JSON. -/
def tag : OuterJoin → String
  | absent => "None"
  | left => "Left"
  | right => "Right"

/-- A join is exchanged as its bare tag. -/
def encode (join : OuterJoin) : Json := .str join.tag

/-- Reads a join by its tag. -/
def decode : Decoder OuterJoin := Decoder.oneOf all tag

end OuterJoin

/-! ## Signs and quantifiers -/

/-- An operator in front of one operand. -/
inductive Sign where
  | plus
  | minus
  | tilde
  deriving DecidableEq

namespace Sign

/-- The signs that a tag can name. -/
def all : List Sign := [plus, minus, tilde]

/-- The character in front of the operand. -/
def token : Sign → String
  | plus => "+"
  | minus => "-"
  | tilde => "~"

/-- The tag of a sign in JSON. -/
def tag : Sign → String
  | plus => "Plus"
  | minus => "Minus"
  | tilde => "Tilde"

/-- A sign is exchanged as its bare tag. -/
def encode (sign : Sign) : Json := .str sign.tag

/-- Reads a sign by its tag. -/
def decode : Decoder Sign := Decoder.oneOf all tag

end Sign

/-- The two words for an existential comparison with a query. -/
inductive AnyWord where
  | any
  | some
  deriving DecidableEq

namespace AnyWord

/-- The words that a tag can name. -/
def all : List AnyWord := [any, some]

/-- The word in front of the query. -/
def token : AnyWord → String
  | any => "ANY"
  | some => "SOME"

/-- The tag of a word in JSON. -/
def tag : AnyWord → String
  | any => "Any"
  | some => "Some"

/-- A word is exchanged as its bare tag. -/
def encode (word : AnyWord) : Json := .str word.tag

/-- Reads a word by its tag. -/
def decode : Decoder AnyWord := Decoder.oneOf all tag

end AnyWord

end SqlText
