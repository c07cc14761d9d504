import SqlText.Expr.Build
import SqlText.Expr.Text

/-!
# What modifiers do to the text

A modifier sets one field of an expression. In the text this inserts one word and changes nothing
else (`Text.Inserts`), or it does not show at all.

Where the word of a negation goes depends on the kind of expression : in front of the whole, or
behind the operand that is tested (`Node.beforeNegation`). A join mark goes behind the operand on
the side opposite to the join, and a membership test marks no other operand than a single expression
on its left. The main statement is `Expr.modifiers_insert`.
-/

namespace SqlText

variable {ε δ : Type}

/-! ## Insertions -/

/-- The second text is the first with a word inserted behind its beginning. -/
def Text.Inserts (word beginning text text' : String) : Prop :=
  ∃ rest, text = beginning ++ rest ∧ text' = beginning ++ word ++ rest

namespace Text.Inserts

variable {word beginning text text' : String}

/-- What is written behind both texts does not matter. -/
theorem behind (h : Inserts word beginning text text') (after : String) :
    Inserts word beginning (text ++ after) (text' ++ after) := by
  obtain ⟨rest, rfl, rfl⟩ := h
  exact ⟨rest ++ after, by rw [String.append_assoc], by rw [String.append_assoc]⟩

/-- What is written in front of both texts belongs to the beginning. -/
theorem before (first : String) (h : Inserts word beginning text text') :
    Inserts word (first ++ beginning) (first ++ text) (first ++ text') := by
  obtain ⟨rest, rfl, rfl⟩ := h
  refine ⟨rest, ?_, ?_⟩
  · rw [String.append_assoc]
  · rw [String.append_assoc, String.append_assoc, ← String.append_assoc]

/-- A negation at the beginning of a text. -/
theorem negation (text : String) :
    Inserts "NOT " "" (negationText false ++ text) (negationText true ++ text) :=
  ⟨text, rfl, rfl⟩

/-- A negation between an operand and the word of a test. -/
theorem testNegation (operand test : String) :
    Inserts "NOT " (operand ++ " ") (operand ++ testNegationText false ++ (" " ++ test))
      (operand ++ testNegationText true ++ (" " ++ test)) := by
  have hblank : Inserts "NOT " " " (testNegationText false ++ " ") (testNegationText true ++ " ") :=
    ⟨"", rfl, rfl⟩
  have h := (hblank.behind test).before operand
  simpa only [String.append_assoc] using h

/-- A join mark behind a text. -/
theorem mark (text : String) :
    Inserts "(+)" text (text ++ Text.onlyIf false OuterJoin.mark)
      (text ++ Text.onlyIf true OuterJoin.mark) :=
  ⟨"", rfl, String.append_empty.symm⟩

end Text.Inserts

/-! ## Negations -/

namespace Node

/-- The negation of a node, if it is of a kind that carries one. -/
def negation? : Node ε → Option Bool
  | binary _ _ _ negated => some negated
  | comparison _ _ _ negated _ => some negated
  | like _ _ negated _ _ => some negated
  | between _ _ _ negated => some negated
  | membership _ _ negated _ => some negated
  | isNull _ negated _ => some negated
  | existence _ negated => some negated
  | brackets _ negated => some negated
  | _ => none

/-- The node with its negation set, if it carries one. -/
def negate : Node ε → Node ε
  | binary left op right _ => binary left op right true
  | comparison left op right _ join => comparison left op right true join
  | like left right _ ignoreCase escape => like left right true ignoreCase escape
  | between expr start stop _ => between expr start stop true
  | membership member items _ join => membership member items true join
  | isNull expr _ oneWord => isNull expr true oneWord
  | existence expr _ => existence expr true
  | brackets expr _ => brackets expr true
  | n => n

/-- What stands in front of the word of a negation : nothing, or the operand that is tested. -/
def beforeNegation : Node String → String
  | between expr _ _ _ => expr ++ " "
  | membership member _ _ join => member.text join ++ " "
  | isNull expr _ oneWord => expr ++ (if oneWord then " " else " IS ")
  | _ => ""

theorem negation?_map (f : ε → δ) (n : Node ε) : (n.map f).negation? = n.negation? := by
  cases n <;> rfl

theorem negate_map (f : ε → δ) (n : Node ε) : (n.map f).negate = n.negate.map f := by
  cases n <;> rfl

/-- Without a negation, or with one that is set, there is nothing to set. -/
theorem negate_of_ne {n : Node ε} (h : n.negation? ≠ some false) : n.negate = n := by
  cases n <;> simp_all [negation?, negate]

/-- Setting a negation inserts its word. -/
theorem inserts_negate {n : Node String} (h : n.negation? = some false) :
    Text.Inserts "NOT " n.beforeNegation n.text n.negate.text := by
  cases n with
  | binary left op right negated =>
    obtain rfl := Option.some.inj h
    exact ((((Text.Inserts.negation left).behind " ").behind op.token).behind " ").behind right
  | comparison left op right negated join =>
    obtain rfl := Option.some.inj h
    exact ((((((Text.Inserts.negation left).behind (Text.onlyIf join.marksLeft _)).behind
      " ").behind op.token).behind " ").behind right).behind (Text.onlyIf join.marksRight _)
  | like left right negated ignoreCase escape =>
    obtain rfl := Option.some.inj h
    exact (((((Text.Inserts.negation left).behind " ").behind (likeWord ignoreCase)).behind
      " ").behind right).behind (Text.ofOption escape fun e => " ESCAPE " ++ Text.quoted e)
  | between expr start stop negated =>
    obtain rfl := Option.some.inj h
    exact (((Text.Inserts.testNegation expr "BETWEEN ").behind start).behind " AND ").behind stop
  | membership member items negated join =>
    obtain rfl := Option.some.inj h
    exact (Text.Inserts.testNegation (member.text join) "IN ").behind items.text
  | isNull expr negated oneWord =>
    obtain rfl := Option.some.inj h
    cases oneWord with
    | true => exact Text.Inserts.before expr ⟨"ISNULL", rfl, rfl⟩
    | false => exact Text.Inserts.before expr ⟨"NULL", rfl, rfl⟩
  | existence expr negated =>
    obtain rfl := Option.some.inj h
    have hword : Text.Inserts "NOT " "" "EXISTS " "NOT EXISTS " := ⟨"EXISTS ", rfl, rfl⟩
    exact hword.behind expr
  | brackets expr negated =>
    obtain rfl := Option.some.inj h
    exact Text.Inserts.negation (Text.bracketed expr)
  | _ => cases h

end Node

/-! ## Joins -/

namespace Node

/-- The join of a node; most kinds of nodes have none. -/
def join : Node ε → OuterJoin
  | comparison _ _ _ _ join => join
  | membership _ _ _ join => join
  | _ => .absent

/-- A right join marks the left operand of a comparison. -/
theorem inserts_comparison_right (left right : String) (op : ComparisonOp) (negated : Bool) :
    Text.Inserts "(+)" (negationText negated ++ left)
      (comparison left op right negated .absent).text
      (comparison left op right negated .right).text :=
  (((((Text.Inserts.mark (negationText negated ++ left)).behind " ").behind op.token).behind
    " ").behind right).behind ""

/-- A left join marks the right operand of a comparison, which is the end of its text. -/
theorem text_comparison_left (left right : String) (op : ComparisonOp) (negated : Bool) :
    (comparison left op right negated .left).text =
      (comparison left op right negated .absent).text ++ "(+)" := by
  simp only [text, OuterJoin.marksLeft, OuterJoin.marksRight, OuterJoin.mark, Text.onlyIf]
  simp

/-- A right join marks a member that is a single expression. -/
theorem inserts_membership_right (member : String) (items : Items String) (negated : Bool) :
    Text.Inserts "(+)" member (membership (.expr member) items negated .absent).text
      (membership (.expr member) items negated .right).text :=
  (((Text.Inserts.mark member).behind (testNegationText negated)).behind " IN ").behind items.text

end Node

/-! ## Modifiers of expressions -/

namespace Expr

theorem withNot_node (n : Node Expr) : (Expr.node n).withNot = .node n.negate := by
  cases n <;> rfl

/-- Setting a negation inserts its word. -/
theorem inserts_withNot {n : Node Expr} (h : n.negation? = some false) :
    Text.Inserts "NOT " (n.map sql).beforeNegation (Expr.node n).sql (Expr.node n).withNot.sql := by
  rw [withNot_node, sql_node, sql_node, ← Node.negate_map]
  exact Node.inserts_negate ((n.negation?_map sql).trans h)

/-- Setting a field of an expression inserts one word into its text, or leaves the text as it is.

A negation that is not set inserts its word : in front of operators, tests for existence and
brackets, behind the operand and a blank for ranges and membership tests, and inside a test for
null. Where there is no join, a right one marks the left operand of a comparison or the single
expression on the left of a membership test, and a left one the end of a comparison; no other text
changes. A negation is set once and for all, and in whatever order it is set beside a join or an
escape. -/
theorem modifiers_insert (n : Node Expr) :
    let e := Expr.node n
    (n.negation? = some false →
      Text.Inserts "NOT " (n.map sql).beforeNegation e.sql e.withNot.sql) ∧
    (n.negation? ≠ some false → e.withNot.sql = e.sql) ∧
    (n.join = .absent →
      match n with
      | .comparison left _ _ negated _ =>
        Text.Inserts "(+)" (negationText negated ++ left.sql) e.sql (e.withOuterJoin .right).sql ∧
          (e.withOuterJoin .left).sql = e.sql ++ "(+)"
      | .membership (.expr left) _ _ _ =>
        Text.Inserts "(+)" left.sql e.sql (e.withOuterJoin .right).sql ∧
          (e.withOuterJoin .left).sql = e.sql
      | _ => (e.withOuterJoin .right).sql = e.sql ∧ (e.withOuterJoin .left).sql = e.sql) ∧
    e.withNot.withNot = e.withNot ∧
    (∀ join, (e.withOuterJoin join).withNot = e.withNot.withOuterJoin join) ∧
    ∀ escape, (e.withEscape escape).withNot = e.withNot.withEscape escape := by
  intro e
  refine ⟨inserts_withNot, fun h => ?_, fun h => ?_, ?_, fun join => ?_, fun escape => ?_⟩
  · rw [withNot_node, Node.negate_of_ne h]
  · cases n with
    | comparison left op right negated join =>
      obtain rfl : join = .absent := h
      simp only [e, withOuterJoin, sql_node]
      exact ⟨Node.inserts_comparison_right left.sql right.sql op negated,
        Node.text_comparison_left left.sql right.sql op negated⟩
    | membership member items negated join =>
      obtain rfl : join = .absent := h
      cases member with
      | expr left =>
        simp only [e, withOuterJoin, sql_node]
        exact ⟨Node.inserts_membership_right left.sql (items.map sql) negated, rfl⟩
      | items is =>
        simp only [e, withOuterJoin, sql_node]
        exact ⟨rfl, rfl⟩
    | _ => exact ⟨rfl, rfl⟩
  · cases n <;> rfl
  · cases n <;> rfl
  · cases n <;> rfl

/-- A comparison that is negated, and a test for null in one word that is negated behind its
operand. -/
theorem modifiers_insert_isNull :
    let compared : Node Expr := .comparison (.column "é") .less (.column "b") true .absent
    let tested : Node Expr := .isNull (.node compared) false true
    tested.negation? = some false ∧ compared.negation? ≠ some false ∧ compared.join = .absent ∧
      Text.Inserts "NOT " "NOT é < b " (Expr.node tested).sql (Expr.node tested).withNot.sql ∧
      (Expr.node tested).withNot.sql = "NOT é < b NOT ISNULL" ∧
      (Expr.node compared).withNot.sql = (Expr.node compared).sql ∧
      Text.Inserts "(+)" "NOT é" (Expr.node compared).sql
        ((Expr.node compared).withOuterJoin .right).sql ∧
      ((Expr.node compared).withOuterJoin .left).sql = "NOT é < b(+)" := by
  intro compared tested
  obtain ⟨htested, -⟩ := modifiers_insert tested
  obtain ⟨-, hcompared, hjoin, -⟩ := modifiers_insert compared
  obtain ⟨hright, -⟩ := hjoin rfl
  have hbefore : (tested.map sql).beforeNegation = "NOT é < b " := by decide +kernel
  exact ⟨rfl, by decide, rfl, hbefore ▸ htested rfl, by decide +kernel, hcompared (by decide),
    hright, by decide +kernel⟩

end Expr

end SqlText
