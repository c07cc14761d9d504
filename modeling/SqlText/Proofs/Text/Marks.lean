import Mathlib.Algebra.GroupWithZero.Nat
import Mathlib.Data.List.Infix
import SqlText.Proofs.Text.Nesting
import SqlText.Proofs.Text.Pieces
import SqlText.Proofs.Text.PlusFree

/-!
# Join marks in the text

The mark `(+)` of an outer join is a text of three characters that also stand elsewhere : brackets
around all kinds of things, the operator and the sign `+`, the opening of hints, the sign of years.
If no string of the tree holds one of the three characters, they never form a mark by accident : the
marks in the text are those of the comparisons and membership tests that are written
(`Expr.occurrences_mark_sql`).

Two texts of which the first does not end in `+` and the second does not begin with `+)` have
together as many marks as one by one, and the texts of expressions are all such (`Text.Sealed`). So
are most words of the grammar, since they have no `+` at all (`Text.PlusFree`). A sign in front of
an operand is the one word that is not sealed, which is why it has to be known what an operand
begins with (`Text.Begins`).
-/

namespace SqlText

variable {ε : Type}

namespace Text

/-! ## Occurrences -/

/-- How often a pattern occurs in a text. -/
def occurrences (pattern text : String) : Nat :=
  text.toList.tails.countP (pattern.toList.isPrefixOf ·)

/-- A pattern does not occur in a text without one of its characters. -/
theorem occurrences_eq_zero {pattern text : String} {c : Char} (hc : c ∈ pattern.toList)
    (h : c ∉ text.toList) : occurrences pattern text = 0 := by
  refine List.countP_eq_zero.2 fun tail htail hmatch => h ?_
  have hmem : c ∈ tail := (List.isPrefixOf_iff_prefix.1 hmatch).subset hc
  exact ((List.mem_tails _ _).1 htail).subset hmem

/-- The number of marks in a list of characters. -/
def marks (cs : List Char) : Nat :=
  cs.tails.countP (['(', '+', ')'].isPrefixOf ·)

theorem occurrences_mark (text : String) : occurrences "(+)" text = marks text.toList := rfl

theorem marks_cons (c : Char) (cs : List Char) :
    marks (c :: cs) = marks cs + if ['(', '+', ')'] <+: c :: cs then 1 else 0 := by
  simp only [marks, List.tails_cons, List.countP_cons, List.isPrefixOf_iff_prefix]

/-! ## Sealed texts -/

/-- A text that does not end in `+` and does not begin with `+)`. -/
def Sealed (text : String) : Prop :=
  text.toList.getLast? ≠ some '+' ∧ ¬['+', ')'] <+: text.toList
  deriving Decidable

theorem plusClosing_append_iff {cs ds : List Char} (hc : cs.getLast? ≠ some '+')
    (hd : ¬['+', ')'] <+: ds) : ['+', ')'] <+: cs ++ ds ↔ ['+', ')'] <+: cs := by
  match cs with
  | [] => simpa using hd
  | [c] =>
    have hne : '+' ≠ c := by simpa [eq_comm] using hc
    simp [List.cons_prefix_cons, hne]
  | c :: c' :: rest => simp [List.cons_prefix_cons]

theorem marks_append {cs ds : List Char} (hc : cs.getLast? ≠ some '+')
    (hd : ¬['+', ')'] <+: ds) : marks (cs ++ ds) = marks cs + marks ds := by
  -- Not by induction over sealed texts : the rest of one may begin with `+)`.
  induction cs with
  | nil => simp [marks]
  | cons c rest ih =>
    have hrest : rest.getLast? ≠ some '+' := by
      cases rest with
      | nil => simp
      | cons c' rest => simpa [List.getLast?_cons_cons] using hc
    have hmatch : ['(', '+', ')'] <+: c :: (rest ++ ds) ↔ ['(', '+', ')'] <+: c :: rest := by
      rw [List.cons_prefix_cons, List.cons_prefix_cons, plusClosing_append_iff hrest hd]
    simp only [List.cons_append, marks_cons, ih hrest, hmatch]
    omega

theorem Sealed.append {first second : String} (h : Sealed first) (h' : Sealed second) :
    Sealed (first ++ second) := by
  rw [Sealed, String.toList_append]
  refine ⟨?_, fun hmatch => h.2 ((plusClosing_append_iff h.1 h'.2).1 hmatch)⟩
  rw [List.getLast?_append]
  cases hlast : second.toList.getLast? with
  | none => exact h.1
  | some c => simpa [hlast] using h'.1

/-- A sealed text and the number of its marks. -/
structure Tallied (count : Nat) (text : String) : Prop where
  isSealed : Sealed text
  occurrences_eq : occurrences "(+)" text = count

namespace Tallied

variable {count count' : Nat} {text first second : String}

theorem append (h : Tallied count first) (h' : Tallied count' second) :
    Tallied (count + count') (first ++ second) := by
  refine ⟨h.isSealed.append h'.isSealed, ?_⟩
  rw [← h.occurrences_eq, ← h'.occurrences_eq, occurrences_mark, String.toList_append]
  exact marks_append h.isSealed.1 h'.isSealed.2

theorem before (h : Tallied 0 first) (h' : Tallied count second) :
    Tallied count (first ++ second) :=
  Nat.zero_add count ▸ h.append h'

theorem behind (h : Tallied count first) (h' : Tallied 0 second) :
    Tallied count (first ++ second) :=
  h.append h'

/-- A word of the grammar without mark. -/
theorem word (h : Sealed text ∧ occurrences "(+)" text = 0) : Tallied 0 text :=
  ⟨h.1, h.2⟩

/-- A mark that may be absent. -/
theorem mark (marked : Bool) : Tallied marked.toNat (onlyIf marked OuterJoin.mark) := by
  cases marked with
  | false => exact ⟨by decide, by decide⟩
  | true => exact ⟨by decide, by decide⟩

end Tallied

theorem PlusFree.tallied {text : String} (h : PlusFree text) : Tallied 0 text where
  isSealed := ⟨fun hlast => h (List.mem_of_getLast? hlast), fun hmatch =>
    h (hmatch.subset List.mem_cons_self)⟩
  occurrences_eq := occurrences_eq_zero (by decide : '+' ∈ "(+)".toList) h

/-! ## Beginnings -/

/-- A text that begins with a character other than a closing bracket. -/
def Begins (text : String) : Prop :=
  text.toList.head?.any (· ≠ ')')
  deriving Decidable

theorem Begins.behind {first : String} (h : Begins first) (second : String) :
    Begins (first ++ second) := by
  rw [Begins, String.toList_append]
  cases hfirst : first.toList with
  | nil => simp [Begins, hfirst] at h
  | cons c rest => simpa [Begins, hfirst] using h

theorem begins_of_ne_empty {text : String} (hne : text ≠ "") (h : ')' ∉ text.toList) :
    Begins text := by
  rw [Begins]
  cases htext : text.toList with
  | nil => exact absurd (String.toList_eq_nil_iff.1 htext) hne
  | cons c rest =>
    rw [htext, List.mem_cons, not_or] at h
    simpa using Ne.symm h.1

theorem begins_negation {text : String} (h : Begins text) (negated : Bool) :
    Begins (negationText negated ++ text) := by
  cases negated with
  | false => simpa [negationText, onlyIf] using h
  | true => exact (by decide : Begins "NOT ").behind text

theorem begins_commaSeparated {first : String} (h : Begins first) (rest : List String) :
    Begins (commaSeparated (first :: rest)) := by
  cases rest with
  | nil => simpa [commaSeparated] using h
  | cons second rest =>
    rw [commaSeparated, String.intercalate_cons_cons, String.append_assoc]
    exact h.behind _

/-- A plus in front of a text. -/
theorem Tallied.plus {count : Nat} {text : String} (h : Tallied count text) (hb : Begins text) :
    Tallied count ("+" ++ text) := by
  have htext : ("+" ++ text).toList = '+' :: text.toList := String.toList_append
  cases hcs : text.toList with
  | nil => simp [Begins, hcs] at hb
  | cons c rest =>
    have hc : c ≠ ')' := by simpa [Begins, hcs] using hb
    refine ⟨⟨?_, ?_⟩, ?_⟩
    · have hlast := h.isSealed.1
      rw [hcs] at hlast
      rw [htext, hcs, List.getLast?_cons_cons]
      exact hlast
    · rw [htext, hcs, List.cons_prefix_cons, List.cons_prefix_cons]
      exact fun hmatch => hc hmatch.2.1.symm
    · rw [← h.occurrences_eq, occurrences_mark, occurrences_mark, htext, marks_cons]
      simp [List.cons_prefix_cons]

end Text

open Text

section Beginnings

variable {strings : ε → List TreeString} {text : ε → String}

theorem Table.begins_qualifier {table : Table} (h : ∀ s ∈ table.strings, Begins s.text) :
    Begins table.qualifier := by
  obtain ⟨schema, name, label⟩ := table
  have hname : Begins name := h (.plain name) (by simp [Table.strings])
  cases label with
  | some label => exact h (.plain label.name) (by simp [Table.strings, Alias.strings])
  | none =>
    cases schema with
    | none => exact hname
    | some schema =>
      have hschema : Begins schema := h (.plain schema) (by simp [Table.strings])
      simp only [qualifier, fullName]
      split_ifs
      · exact hschema
      · exact hname
      · exact (hschema.behind ".").behind name

theorem Column.begins_text {column : Column} (h : ∀ s ∈ column.strings, Begins s.text) :
    Begins column.text := by
  have hname : Begins column.name := h (.plain column.name) (by simp [Column.strings])
  unfold Column.text
  split
  · exact hname
  · next table ht =>
    have htable : ∀ s ∈ table.strings, Begins s.text := fun s hs =>
      h s (by simp [Column.strings, ht, hs])
    split_ifs
    · exact hname
    · exact ((Table.begins_qualifier htable).behind ".").behind column.name

theorem Literal.begins_text {l : Literal} (h : ∀ s ∈ l.strings, Begins s.text) :
    Begins l.text := by
  have hbrace : ∀ keyword value, Begins (escapeForm keyword value) := fun keyword value =>
    ((((by decide : Begins "\x7b").behind keyword).behind " '").behind value).behind "'\x7d"
  cases l with
  | long spelling => exact h (.plain spelling) List.mem_cons_self
  | double spelling => exact h (.plain spelling) List.mem_cons_self
  | hex spelling => exact h (.plain spelling) List.mem_cons_self
  | string value =>
    obtain ⟨marker, value⟩ := value
    cases marker with
    | none => exact ((by decide : Begins "'").behind value).behind "'"
    | some marker => exact (h (.plain marker) List.mem_cons_self).behind (quoted value)
  | date value => exact hbrace "d" value.text
  | time value => exact hbrace "t" value.text
  | timestamp value => exact hbrace "ts" value.text
  | dateTime word value =>
    have hword : Begins word.token := by cases word <;> decide
    exact (hword.behind " ").behind (quoted value)
  | null => exact (by decide : Begins "NULL")

theorem Parameter.begins_text (p : Parameter) : Begins p.text := by
  have hcolon : Begins ":" := by decide
  have hmark : Begins "?" := by decide
  cases p with
  | positional index => exact hmark.behind _
  | named name typeSuffix => exact (hcolon.behind name).behind _
  | numeric index => exact hcolon.behind _
  | markup typeSuffix => exact hmark.behind _

theorem Query.begins_text (query : Query String) : Begins query.text := by
  induction query with
  | plain select =>
    exact ((((((((by decide : Begins "SELECT ").behind _).behind _).behind _).behind _).behind
      _).behind _).behind _).behind _
  | compound op all left right ih _ => exact (ih.behind (op.joiner all)).behind right.text

theorem SubQuery.begins_text (sub : SubQuery String) : Begins sub.text := by
  obtain ⟨query, commonTables, brackets⟩ := sub
  cases brackets with
  | true => exact (((by decide : Begins "(").behind _).behind _).behind _
  | false =>
    cases commonTables with
    | nil => simpa [SubQuery.text, withText, onlyIf] using query.begins_text
    | cons table rest =>
      have hwith : Begins "WITH " := by decide
      simpa [SubQuery.text, withText, onlyIf, String.append_assoc] using hwith.behind _

theorem Call.begins_text {call : Call ε} (h : ∀ s ∈ (call.map strings).strings, Begins s.text) :
    Begins (call.map text).text := by
  have hname : Begins call.name := h (.plain call.name) List.mem_cons_self
  cases hescaped : call.escaped with
  | true =>
    have hword : Begins "\x7bfn " := by decide
    simpa [Call.text, map, hescaped, onlyIf, String.append_assoc] using hword.behind _
  | false => simpa [Call.text, map, hescaped, onlyIf, String.append_assoc] using hname.behind _

/-- The text of a membership test begins with its left side, or with a blank if that has no rows. -/
theorem Member.begins_text {member : Member ε} (h : ∀ e ∈ member.children, Begins (text e))
    (join : OuterJoin) :
    (member.map text).text join = "" ∨ Begins ((member.map text).text join) := by
  have hbracket : Begins "(" := by decide
  cases member with
  | expr e => exact .inr ((h e List.mem_cons_self).behind _)
  | items is =>
    cases is with
    | list values => exact .inr ((hbracket.behind _).behind _)
    | rows lists =>
      cases lists with
      | nil => exact .inl rfl
      | cons list rest => exact .inr (begins_commaSeparated ((hbracket.behind _).behind _) _)
    | query sub => exact .inr (sub.map text).begins_text

/-- The text of a node begins with a word, a string or the text of a sub-expression. -/
theorem Node.begins_text {n : Node ε} (hs : ∀ s ∈ (n.map strings).strings, Begins s.text)
    (h : ∀ e ∈ n.children, Begins (text e)) : Begins (n.map text).text := by
  cases n with
  | binary left op right negated =>
    simp only [map, Node.text, String.append_assoc]
    exact begins_negation ((h left List.mem_cons_self).behind _) negated
  | comparison left op right negated join =>
    simp only [map, Node.text, String.append_assoc]
    exact begins_negation ((h left List.mem_cons_self).behind _) negated
  | like left right negated ignoreCase escape =>
    simp only [map, Node.text, String.append_assoc]
    exact begins_negation ((h left List.mem_cons_self).behind _) negated
  | between e start stop negated =>
    simp only [map, Node.text, String.append_assoc]
    exact (h e List.mem_cons_self).behind _
  | membership member items negated join =>
    have hmember : ∀ e ∈ member.children, Begins (text e) := fun e he =>
      h e (List.mem_append_left _ he)
    simp only [map, Node.text, String.append_assoc]
    rcases Member.begins_text hmember join with hempty | hbegins
    · have hword : Begins (testNegationText negated ++ " IN ") := by cases negated <;> decide
      rw [hempty, String.empty_append, ← String.append_assoc]
      exact hword.behind _
    · exact hbegins.behind _
  | isNull e negated oneWord => exact (h e List.mem_cons_self).behind _
  | existence e negated =>
    have hword : Begins (existenceTest negated) := by cases negated <;> decide
    exact hword.behind _
  | not e => exact (by decide : Begins "NOT ").behind _
  | signed sign e =>
    have hsign : Begins sign.token := by cases sign <;> decide
    exact hsign.behind _
  | brackets e negated =>
    have hbracket : Begins "(" := by decide
    exact begins_negation ((hbracket.behind _).behind _) negated
  | case c =>
    simp only [map, Node.text, Case.text, String.append_assoc]
    exact (by decide : Begins "CASE ").behind _
  | call c => exact Call.begins_text hs
  | analytic a =>
    have hname : Begins a.name := hs (.plain a.name) List.mem_cons_self
    simp only [map, Node.text, Analytic.text, String.append_assoc]
    exact hname.behind _
  | groupConcat g =>
    exact (((((by decide : Begins "GROUP_CONCAT(").behind _).behind _).behind _).behind _).behind _
  | cast e type keyword =>
    cases keyword with
    | true =>
      simp only [map, Node.text, if_true, String.append_assoc]
      exact (by decide : Begins "CAST(").behind _
    | false => exact ((h e List.mem_cons_self).behind "::").behind type.sql
  | extract field e =>
    simp only [map, Node.text, String.append_assoc]
    exact (by decide : Begins "EXTRACT(").behind _
  | interval amount unit =>
    simp only [map, Node.text, String.append_assoc]
    exact (by decide : Begins "INTERVAL ").behind _
  | row name elements =>
    have hlist : Begins (Arguments.text true (elements.map text)) :=
      ((by decide : Begins "(").behind _).behind _
    cases name with
    | none => simpa [map, Node.text] using hlist
    | some name =>
      have hname : Begins name := hs (.plain name) List.mem_cons_self
      exact hname.behind _
  | values elements => exact ((by decide : Begins "(").behind _).behind _
  | column c => exact Column.begins_text hs
  | document c path =>
    have hcolumn : Begins c.text :=
      Column.begins_text fun s hs' => hs s (List.mem_append_left _ hs')
    exact hcolumn.behind _
  | literal l => exact Literal.begins_text hs
  | parameter p => exact p.begins_text
  | sessionVariable name system =>
    have hsign : Begins (variableSign system) := by cases system <;> decide
    exact hsign.behind _
  | timeKey word => exact hs (.plain word) List.mem_cons_self
  | subQuery query => exact (query.map text).begins_text
  | allOf query => exact (by decide : Begins "ALL ").behind _
  | anyOf word query =>
    have hword : Begins word.token := by cases word <;> decide
    exact (hword.behind " ").behind _
  | hierarchical start connect noCycle =>
    simp only [map, Node.text, String.append_assoc]
    cases start with
    | none =>
      rw [Option.map_none, ofOption_none, String.empty_append]
      exact (by decide : Begins " CONNECT BY ").behind _
    | some start =>
      rw [Option.map_some, ofOption_some, String.append_assoc]
      exact (by decide : Begins " START WITH ").behind _
  | hint hint =>
    have hopening : Begins hint.opening := by
      unfold Hint.opening
      split <;> decide
    exact (hopening.behind hint.value).behind hint.closing

end Beginnings

/-! ## Marks of nodes -/

namespace Node

/-- A comparison with a mark on one of its operands. -/
def isMarkedComparison : Node ε → Bool
  | comparison _ _ _ _ join => join = .left ∨ join = .right
  | _ => false

/-- A membership test with a mark on its left side, which is a single expression. -/
def isMarkedMembership : Node ε → Bool
  | membership (.expr _) _ _ join => join = .right
  | _ => false

/-- The marks that a node writes besides its sub-expressions. -/
def ownMarks (n : Node ε) : Nat :=
  n.isMarkedComparison.toNat + n.isMarkedMembership.toNat

end Node

section Tallies

variable {strings : ε → List TreeString} {text : ε → String} {count : ε → Nat}

/-- Where the words have no plus, the marks are those of the parts. -/
theorem Composed.tallied {parts : List ε} {whole : (ε → String) → String}
    (h : Composed parts whole) (hwords : PlusFree (whole fun _ => ""))
    (hparts : ∀ e ∈ parts, Tallied (count e) (text e)) :
    Tallied (parts.map count).sum (whole text) := by
  obtain ⟨pieces, rfl, hwhole⟩ := h
  -- With empty parts the text consists of the words alone.
  rw [hwhole] at hwords ⊢
  clear hwhole
  induction pieces with
  | nil => exact plusFree_empty.tallied
  | cons piece rest ih =>
    have hjoined : ∀ f : ε → String,
        Piece.joined f (piece :: rest) = piece.text f ++ Piece.joined f rest := by
      intro f
      simp [Piece.joined]
    rw [hjoined] at hwords ⊢
    obtain ⟨hpiece, hrest⟩ := plusFree_append.1 hwords
    cases piece with
    | word w => exact hpiece.tallied.before (ih hrest hparts)
    | part e =>
      obtain ⟨he, hparts⟩ := List.forall_mem_cons.1 hparts
      exact he.append (ih hrest hparts)

namespace Node

theorem tallied_binary {left right : String} {count count' : Nat} (hleft : Tallied count left)
    (hright : Tallied count' right) (op : BinaryOp) (negated : Bool) :
    Tallied (count + count') (binary left op right negated).text := by
  have hnegation : PlusFree (negationText negated) := by cases negated <;> decide
  have hop : Tallied 0 (" " ++ op.token ++ " ") := by
    refine .word ?_
    cases op with
    | pattern op => cases op <;> decide
    | regexp op => cases op <;> decide
    | document op => cases op <;> decide
    | _ => decide
  have htext : (binary left op right negated).text =
      negationText negated ++ left ++ (" " ++ op.token ++ " ") ++ right := by
    simp only [Node.text, String.append_assoc]
  rw [htext]
  exact ((hnegation.tallied.before hleft).behind hop).append hright

theorem tallied_comparison {left right : String} {count count' : Nat} (hleft : Tallied count left)
    (hright : Tallied count' right) (op : ComparisonOp) (negated : Bool) (join : OuterJoin) :
    Tallied (count + join.marksLeft.toNat + (count' + join.marksRight.toNat))
      (comparison left op right negated join).text := by
  have hnegation : PlusFree (negationText negated) := by cases negated <;> decide
  have hop : PlusFree (" " ++ op.token ++ " ") := by
    cases op with
    | notEquals sign => cases sign <;> decide
    | _ => decide
  have htext : (comparison left op right negated join).text =
      negationText negated ++ left ++ Text.onlyIf join.marksLeft OuterJoin.mark ++
        (" " ++ op.token ++ " ") ++ (right ++ Text.onlyIf join.marksRight OuterJoin.mark) := by
    simp only [Node.text, String.append_assoc]
  rw [htext]
  exact (((hnegation.tallied.before hleft).append (.mark _)).behind hop.tallied).append
    (hright.append (.mark _))

/-- A membership test has the mark of its left side, if that is a single expression. -/
theorem tallied_membership {member : Member ε} {items : Items ε} (negated : Bool)
    (join : OuterJoin) (hsmember : ∀ s ∈ (member.map strings).strings, PlusFree s.text)
    (hsitems : ∀ s ∈ (items.map strings).strings, PlusFree s.text)
    (hmember : ∀ e ∈ member.children, Tallied (count e) (text e))
    (hitems : ∀ e ∈ items.children, Tallied (count e) (text e)) :
    Tallied ((membership member items negated join).ownMarks +
      ((member.children.map count).sum + (items.children.map count).sum))
      ((membership member items negated join).map text).text := by
  have hempty : ∀ _ : ε, PlusFree "" := fun _ => plusFree_empty
  have htest : PlusFree (testNegationText negated) := by cases negated <;> decide
  have hin : PlusFree " IN " := by decide
  have hright := items.composed.tallied (Items.plusFree_text hempty hsitems) hitems
  have hleft : Tallied ((membership member items negated join).ownMarks +
      (member.children.map count).sum) ((member.map text).text join) := by
    cases member with
    | expr e =>
      have he := (hmember e List.mem_cons_self).append (.mark join.marksLeft)
      have hcount : count e + join.marksLeft.toNat =
          (membership (.expr e) items negated join).ownMarks +
            ((Member.expr e).children.map count).sum := by
        cases join <;> simp +arith [ownMarks, isMarkedComparison, isMarkedMembership,
          OuterJoin.marksLeft, Member.children]
      exact hcount ▸ he
    | items is =>
      have hwords := Items.plusFree_text hempty hsmember
      have his := is.composed.tallied hwords hmember
      have hown : (membership (.items is) items negated join).ownMarks = 0 := rfl
      rw [hown, Nat.zero_add]
      exact his
  rw [← Nat.add_assoc]
  exact ((hleft.behind htest.tallied).behind hin.tallied).append hright

/-- The sign of a year stands in braces and quotes, and not in brackets. -/
theorem tallied_escapeForm {keyword value : String} (hkeyword : '(' ∉ keyword.toList)
    (hvalue : ∀ c ∈ value.toList, isInert c) : Tallied 0 (Literal.escapeForm keyword value) := by
  have hform : (Literal.escapeForm keyword value).toList =
      '\x7b' :: (keyword.toList ++ [' ', '\x27'] ++ value.toList ++ ['\x27', '\x7d']) := by
    simp only [Literal.escapeForm, String.toList_append]
    rfl
  have hinert : '(' ∉ value.toList := fun hmem => absurd (hvalue _ hmem) (by decide)
  refine ⟨⟨?_, ?_⟩, occurrences_eq_zero (by decide : '(' ∈ "(+)".toList) ?_⟩
  · rw [hform, ← List.cons_append, List.getLast?_append]
    simp
  · rw [hform, List.cons_prefix_cons]
    exact fun hmatch => absurd hmatch.1 (by decide)
  · rw [hform]
    simp [hkeyword, hinert]

theorem tallied_literal {l : Literal} (h : ∀ s ∈ l.strings, PlusFree s.text) :
    Tallied 0 l.text := by
  cases l with
  | date value =>
    refine tallied_escapeForm (by decide) ?_
    rw [Date.text, String.toList_ofList]
    exact value.isInert_chars
  | time value =>
    refine tallied_escapeForm (by decide) ?_
    rw [Time.text, String.toList_ofList]
    exact value.spelling_chars.isInert
  | timestamp value => exact tallied_escapeForm (by decide) value.isInert_text
  | string value => exact (QuotedText.plusFree_text h).tallied
  | dateTime word value =>
    have hword : PlusFree word.token := by cases word <;> decide
    refine PlusFree.tallied ?_
    simpa +decide [Literal.text, Literal.strings, hword] using h
  | null => exact (by decide : PlusFree "NULL").tallied
  | long spelling => exact PlusFree.tallied (List.forall_mem_cons.1 h).1
  | double spelling => exact PlusFree.tallied (List.forall_mem_cons.1 h).1
  | hex spelling => exact PlusFree.tallied (List.forall_mem_cons.1 h).1

theorem tallied_hint {hint : Hint} (h : ∀ s ∈ hint.strings, PlusFree s.text) :
    Tallied 0 hint.text := by
  have hopening : Tallied 0 hint.opening := by
    refine .word ?_
    unfold Hint.opening
    split <;> decide
  have hclosing : PlusFree hint.closing := by
    unfold Hint.closing
    split <;> decide
  have hvalue : PlusFree hint.value := (List.forall_mem_cons.1 h).1
  exact (hopening.behind hvalue.tallied).behind hclosing.tallied

theorem tallied_signed {t : String} {k : Nat} (h : Tallied k t) (hbegins : Begins t) (sign : Sign) :
    Tallied k (sign.token ++ t) := by
  cases sign with
  | plus => exact h.plus hbegins
  | minus => exact (by decide : PlusFree "-").tallied.before h
  | tilde => exact (by decide : PlusFree "~").tallied.before h

/-- The marks in the text of a node are its own and those of its written sub-expressions. -/
theorem tallied_text {n : Node ε} (hs : ∀ s ∈ (n.map strings).strings, PlusFree s.text)
    (hbegins : ∀ e ∈ n.children, Begins (text e))
    (hparts : ∀ e ∈ n.written, Tallied (count e) (text e)) :
    Tallied (n.ownMarks + (n.written.map count).sum) (n.map text).text := by
  -- A node with plain words has no mark of its own.
  have hplain : n.ownMarks = 0 → n.hasPlainWords →
      Tallied (n.ownMarks + (n.written.map count).sum) (n.map text).text := by
    intro hown hplain
    rw [hown, Nat.zero_add]
    exact n.composed.tallied (plusFree_text (fun _ => plusFree_empty) hs hplain) hparts
  cases n with
  | binary left op right negated =>
    have hleft := hparts left (by simp [written, children])
    have hright := hparts right (by simp [written, children])
    have h := tallied_binary hleft hright op negated
    simpa [ownMarks, isMarkedComparison, isMarkedMembership, written, children, map] using h
  | comparison left op right negated join =>
    have hleft := hparts left (by simp [written, children])
    have hright := hparts right (by simp [written, children])
    have hcount : count left + join.marksLeft.toNat + (count right + join.marksRight.toNat) =
        (comparison left op right negated join).ownMarks +
          ((comparison left op right negated join).written.map count).sum := by
      cases join <;> simp +arith [ownMarks, isMarkedComparison, isMarkedMembership,
        OuterJoin.marksLeft, OuterJoin.marksRight, written, children]
    exact hcount ▸ tallied_comparison hleft hright op negated join
  | membership member items negated join =>
    obtain ⟨hmember, hitems⟩ := List.forall_mem_append.1 hparts
    obtain ⟨hsmember, hsitems⟩ := List.forall_mem_append.1 hs
    have h := tallied_membership negated join hsmember hsitems hmember hitems
    rwa [← List.sum_append, ← List.map_append] at h
  | signed sign e =>
    have h := tallied_signed (hparts e List.mem_cons_self) (hbegins e List.mem_cons_self) sign
    simpa [ownMarks, isMarkedComparison, isMarkedMembership, written, children, map,
      Node.text] using h
  | literal l => exact tallied_literal hs
  | hint hint => exact tallied_hint hs
  | _ => exact hplain rfl rfl

end Node

end Tallies

/-! ## Marks of expressions -/

namespace Expr

/-- How many of the nodes that are written are marked comparisons and membership tests. -/
def markedNodes (e : Expr) : Nat :=
  e.writtenNodes.countP Node.isMarkedComparison + e.writtenNodes.countP Node.isMarkedMembership

theorem sum_markedNodes (es : List Expr) :
    (es.map markedNodes).sum =
      (es.flatMap writtenNodes).countP Node.isMarkedComparison +
        (es.flatMap writtenNodes).countP Node.isMarkedMembership := by
  induction es with
  | nil => rfl
  | cons e rest ih =>
    simp only [List.map_cons, List.sum_cons, List.flatMap_cons, List.countP_append, ih, markedNodes]
    omega

theorem markedNodes_node (n : Node Expr) :
    (Expr.node n).markedNodes = n.ownMarks + (n.written.map markedNodes).sum := by
  rw [sum_markedNodes, markedNodes, writtenNodes_node, List.countP_cons, List.countP_cons,
    Node.ownMarks]
  cases n.isMarkedComparison <;> cases n.isMarkedMembership <;> simp <;> omega

/-- The text of an expression begins with a character other than a closing bracket, and its marks
are those of its nodes. -/
theorem begins_and_tallied_sql {e : Expr} (hbegin : ∀ s ∈ e.strings, Begins s.text)
    (hplus : ∀ s ∈ e.strings, PlusFree s.text) : Begins e.sql ∧ Tallied e.markedNodes e.sql := by
  induction e using Expr.induction with
  | step n ih =>
    rw [strings_node] at hbegin hplus
    have hparts : ∀ e ∈ n.children, Begins e.sql ∧ Tallied e.markedNodes e.sql := fun e he =>
      ih e he (n.forall_strings_children hbegin e he) (n.forall_strings_children hplus e he)
    rw [sql_node, markedNodes_node]
    exact ⟨Node.begins_text hbegin fun e he => (hparts e he).1,
      Node.tallied_text hplus (fun e he => (hparts e he).1)
        fun e he => (hparts e (n.written_subset he)).2⟩

/-- If no string of a tree is empty or holds one of the characters of a mark, the marks in the text
are those of the comparisons with a join and of the membership tests with a right join and a single
expression on the left, wherever these are written. -/
theorem occurrences_mark_sql (e : Expr)
    (h : ∀ s ∈ e.strings, s.text ≠ "" ∧
      '(' ∉ s.text.toList ∧ '+' ∉ s.text.toList ∧ ')' ∉ s.text.toList) :
    Text.occurrences "(+)" e.sql =
      e.writtenNodes.countP Node.isMarkedComparison +
        e.writtenNodes.countP Node.isMarkedMembership := by
  have hbegin : ∀ s ∈ e.strings, Begins s.text := fun s hs =>
    begins_of_ne_empty (h s hs).1 (h s hs).2.2.2
  have hplus : ∀ s ∈ e.strings, PlusFree s.text := fun s hs => (h s hs).2.2.1
  exact (begins_and_tallied_sql hbegin hplus).2.occurrences_eq

/-- A sign in brackets in front of a cast, and an analytic function with an offset that is not
written; of four marked nodes three are written. -/
theorem occurrences_mark_sql_membership :
    let compared := fun join =>
      Expr.node (.comparison (.column "a") .equals (.column "b") false join)
    let signed := Expr.node (.signed .plus (.node (.cast (compared .left) .integer true)))
    let called := Expr.node (.analytic { Analytic.ofName "f" with offset := some (compared .left) })
    let e := Expr.node (.membership (.expr (.node (.brackets signed false)))
      (.list [compared .right, called]) true .right)
    (∀ s ∈ e.strings, s.text ≠ "" ∧
        '(' ∉ s.text.toList ∧ '+' ∉ s.text.toList ∧ ')' ∉ s.text.toList) ∧
      e.sql = "(+CAST(a = b(+) AS INTEGER))(+) NOT IN (a(+) = b, f() OVER ())" ∧
      Text.occurrences "(+)" e.sql = 3 := by
  intro compared signed called e
  have h : ∀ s ∈ e.strings, s.text ≠ "" ∧
      '(' ∉ s.text.toList ∧ '+' ∉ s.text.toList ∧ ')' ∉ s.text.toList := by
    decide +kernel
  refine ⟨h, by decide +kernel, (occurrences_mark_sql e h).trans ?_⟩
  decide +kernel

end Expr

end SqlText
