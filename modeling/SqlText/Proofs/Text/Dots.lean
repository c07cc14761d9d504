import Mathlib.Data.List.Chain
import Mathlib.Data.List.Infix
import SqlText.Proofs.Temporal.Spelling
import SqlText.Proofs.Text.Pieces
import SqlText.Proofs.Text.Scanning
import SqlText.Proofs.Text.Strings

/-!
# What dots stand behind

A dot is anchored if a character stands in front of it that is no blank, comma or opening bracket.
Dots are written behind the qualifiers of columns, between the schema and the name of a table,
behind the arguments of a call, in the fractions of times and in the select item `t.*`. If none of
the strings of a tree holds a dot, a blank, a comma or an opening bracket, all of these dots but the
last kind are anchored, because empty parts of names are left out together with their dots
(`anchored_text`, one lemma for each clause).

The item `t.*` is written behind the qualifier of the table even if that is empty. So the text of a
tree is anchored just if no table with an empty qualifier is starred in a query that is written
(`Expr.anchored_sql_iff`).
-/

namespace SqlText

namespace Text

/-- Every dot stands behind a character that is no blank, comma or opening bracket. -/
def Anchored (text : String) : Prop :=
  ∀ before after, text.toList = before ++ '.' :: after →
    ∃ c ∈ before.getLast?, c ∉ [' ', ',', '(']

/-- A text without dots and without the characters that no dot may follow. -/
def Clean (text : String) : Prop :=
  ∀ c ∈ text.toList, c ∉ ['.', ' ', ',', '(']

instance : DecidablePred Clean := fun text =>
  List.decidableBAll (· ∉ ['.', ' ', ',', '(']) text.toList

/-- An anchored text behind which a dot is anchored. -/
structure Firm (text : String) : Prop where
  anchored : Anchored text
  last : ∃ c ∈ text.toList.getLast?, c ∉ [' ', ',', '(']

/-- A dot behind a blank. -/
def Loose (text : String) : Prop :=
  [' ', '.'] <:+: text.toList
  deriving Decidable

variable {text first second : String}

/-! ## Loose dots -/

theorem Loose.not_anchored (h : Loose text) : ¬ Anchored text := by
  intro hanchored
  obtain ⟨before, after, htext⟩ := h
  have hdot : text.toList = (before ++ [' ']) ++ '.' :: after := by
    rw [← htext, List.append_assoc, List.append_assoc]
    rfl
  obtain ⟨c, hc, hloose⟩ := hanchored _ _ hdot
  rw [List.getLast?_concat, Option.mem_some_iff] at hc
  exact hloose (hc ▸ List.mem_cons_self)

theorem Loose.before (w : String) (h : Loose text) : Loose (w ++ text) := by
  rw [Loose, String.toList_append]
  exact h.trans (List.suffix_append _ _).isInfix

theorem Loose.behind (h : Loose text) (w : String) : Loose (text ++ w) := by
  rw [Loose, String.toList_append]
  exact h.trans (List.prefix_append _ _).isInfix

theorem Loose.of_append (hfirst : first.toList.getLast? = some ' ')
    (hsecond : second.toList.head? = some '.') : Loose (first ++ second) := by
  obtain ⟨before, hbefore⟩ := List.getLast?_eq_some_iff.1 hfirst
  obtain ⟨after, hafter⟩ := List.head?_eq_some_iff.1 hsecond
  refine ⟨before, after, ?_⟩
  rw [String.toList_append, hbefore, hafter]
  simp

/-- A member of a list stands behind a blank if the list does. -/
theorem exists_commaSeparated_eq {part : String} {parts : List String} (h : part ∈ parts) :
    ∃ left right, commaSeparated parts = left ++ part ++ right ∧
      ∀ start : String, start.toList.getLast? = some ' ' →
        (start ++ left).toList.getLast? = some ' ' := by
  unfold commaSeparated
  induction parts with
  | nil => cases h
  | cons first rest ih =>
    rcases List.mem_cons.1 h with rfl | h
    · have hleft : ∀ start : String, start.toList.getLast? = some ' ' →
          (start ++ "").toList.getLast? = some ' ' :=
        fun start hstart => by rwa [String.append_empty]
      cases rest with
      | nil => exact ⟨"", "", by simp, hleft⟩
      | cons next rest =>
        refine ⟨"", ", " ++ String.intercalate ", " (next :: rest), ?_, hleft⟩
        rw [String.intercalate_cons_cons, String.empty_append, String.append_assoc]
    · obtain ⟨left, right, htext, hleft⟩ := ih h
      obtain ⟨next, rest, rfl⟩ := List.exists_cons_of_ne_nil (List.ne_nil_of_mem h)
      refine ⟨first ++ ", " ++ left, right, ?_, fun start _ => ?_⟩
      · simp only [String.intercalate_cons_cons, htext, String.append_assoc]
      · -- Whatever the list begins with, the blank in question is that of the comma.
        have hcomma : ", ".toList = [',', ' '] := by decide
        rw [← String.append_assoc]
        exact hleft _ (by simp [hcomma])

theorem Loose.commaSeparated {parts : List String} (h : Loose text) (hmem : text ∈ parts) :
    Loose (commaSeparated parts) := by
  obtain ⟨left, right, htext, -⟩ := exists_commaSeparated_eq hmem
  rw [htext]
  exact (h.before left).behind right

/-- A dot at the beginning of a member of a list, behind a blank. -/
theorem Loose.of_mem_commaSeparated {parts : List String}
    (hfirst : first.toList.getLast? = some ' ') (hsecond : second.toList.head? = some '.')
    (hmem : second ∈ parts) :
    Loose (first ++ Text.commaSeparated parts) := by
  obtain ⟨left, right, htext, hleft⟩ := exists_commaSeparated_eq hmem
  rw [htext, ← String.append_assoc, ← String.append_assoc]
  exact (of_append (hleft first hfirst) hsecond).behind right

/-! ## Anchored dots -/

/-- A dot may stand behind a character. -/
def Bears (a b : Char) : Prop :=
  b = '.' → a ∉ [' ', ',', '(']

/-- In an anchored text every character bears the next, if a blank is put in front of it. -/
theorem anchored_iff_isChain : Anchored text ↔ (' ' :: text.toList).IsChain Bears := by
  rw [List.isChain_iff_forall_rel_of_append_cons_cons]
  constructor
  · rintro h a b before after htext rfl
    cases before with
    | nil =>
      obtain ⟨c, hc, -⟩ := h [] after (List.cons.inj htext).2
      cases hc
    | cons _ before =>
      have hdot : text.toList = (before ++ [a]) ++ '.' :: after := by
        simpa using (List.cons.inj htext).2
      obtain ⟨c, hc, hbears⟩ := h _ _ hdot
      rw [List.getLast?_concat, Option.mem_some_iff] at hc
      exact hc ▸ hbears
  · intro h before after htext
    rcases List.eq_nil_or_concat before with rfl | ⟨before, c, rfl⟩
    · have hdot : ' ' :: text.toList = [] ++ ' ' :: '.' :: after := congrArg (' ' :: ·) htext
      exact (h hdot rfl List.mem_cons_self).elim
    · have hdot : ' ' :: text.toList = (' ' :: before) ++ c :: '.' :: after := by simp [htext]
      exact ⟨c, by simp, h hdot rfl⟩

theorem isChain_bears_of_not_mem_tail {cs : List Char} (h : '.' ∉ cs.tail) : cs.IsChain Bears := by
  rw [List.isChain_iff_forall_rel_of_append_cons_cons]
  rintro a b before after rfl rfl
  cases before <;> simp at h

namespace Anchored

/-- A text without dots. -/
theorem word (h : '.' ∉ text.toList) : Anchored text :=
  anchored_iff_isChain.2 (isChain_bears_of_not_mem_tail h)

/-- An anchored text does not begin with a dot, so it may stand behind any other. -/
theorem append (hfirst : Anchored first) (hsecond : Anchored second) :
    Anchored (first ++ second) := by
  rw [anchored_iff_isChain] at hfirst hsecond ⊢
  obtain ⟨hhead, hrest⟩ := List.isChain_cons.1 hsecond
  rw [String.toList_append, ← List.cons_append, List.isChain_append]
  refine ⟨hfirst, hrest, fun a _ b hb hdot => ?_⟩
  exact (hhead b hb hdot List.mem_cons_self).elim

end Anchored

namespace Firm

/-- Behind a firm text a dot may begin the next one. -/
theorem append_dotted (hfirst : Firm first) (hsecond : '.' ∉ second.toList.tail) :
    Anchored (first ++ second) := by
  obtain ⟨hanchored, c, hc, hloose⟩ := hfirst
  rw [anchored_iff_isChain] at hanchored ⊢
  rw [String.toList_append, ← List.cons_append, List.isChain_append]
  refine ⟨hanchored, isChain_bears_of_not_mem_tail hsecond, fun a ha b _ _ => ?_⟩
  rw [List.getLast?_cons, Option.mem_def.1 hc] at ha
  exact Option.some.inj ha ▸ hloose

theorem behind (hfirst : Anchored first) (hsecond : Firm second) : Firm (first ++ second) := by
  refine ⟨hfirst.append hsecond.anchored, ?_⟩
  obtain ⟨c, hc, hloose⟩ := hsecond.last
  exact ⟨c, by simp [List.getLast?_append, Option.mem_def.1 hc], hloose⟩

end Firm

/-! ## Ways of putting texts together -/

namespace Clean

theorem dot_not_mem (h : Clean text) : '.' ∉ text.toList :=
  fun hc => h '.' hc List.mem_cons_self

theorem anchored (h : Clean text) : Anchored text :=
  .word h.dot_not_mem

/-- A clean text that is not empty ends in a character that bears a dot. -/
theorem firm (h : Clean text) (hne : text ≠ "") : Firm text := by
  have hchars : text.toList ≠ [] := fun hnil => hne (String.toList_eq_nil_iff.1 hnil)
  have hlast := h _ (List.getLast_mem hchars)
  refine ⟨h.anchored, _, List.getLast?_eq_some_getLast hchars, fun hloose => hlast ?_⟩
  exact List.mem_cons_of_mem _ hloose

end Clean

/-- A word without dots that ends in a character that bears one. -/
theorem Firm.word (h : '.' ∉ text.toList)
    (hlast : text.toList.getLast? ∉ [none, some ' ', some ',', some '(']) : Firm text := by
  refine ⟨.word h, ?_⟩
  cases hc : text.toList.getLast? with
  | none => simp [hc] at hlast
  | some c => exact ⟨c, rfl, by simpa [hc] using hlast⟩

namespace Anchored

variable {α β : Type}

theorem onlyIf (h : Anchored text) (condition : Bool) : Anchored (onlyIf condition text) := by
  cases condition with
  | true => exact h
  | false => exact word (by decide : '.' ∉ "".toList)

theorem ofOption {part : Option α} {text : α → String}
    (h : ∀ a ∈ part.toList, Anchored (text a)) : Anchored (ofOption part text) := by
  cases part with
  | none => exact word (by decide : '.' ∉ "".toList)
  | some a => exact h a (List.mem_singleton.2 rfl)

theorem ofOption_map {part : Option α} {f : α → β} {text : β → String}
    (h : ∀ a ∈ part.toList, Anchored (text (f a))) :
    Anchored (Text.ofOption (part.map f) text) := by
  refine ofOption ?_
  rw [Option.toList_map]
  exact List.forall_mem_map.2 h

theorem join {parts : List String} (h : ∀ part ∈ parts, Anchored part) :
    Anchored (String.join parts) := by
  induction parts with
  | nil => exact word (by decide)
  | cons part rest ih =>
    obtain ⟨hpart, hrest⟩ := List.forall_mem_cons.1 h
    rw [String.join_cons]
    exact hpart.append (ih hrest)

theorem commaSeparated {parts : List String} (h : ∀ part ∈ parts, Anchored part) :
    Anchored (commaSeparated parts) := by
  unfold Text.commaSeparated
  induction parts with
  | nil => exact word (by decide)
  | cons part rest ih =>
    obtain ⟨hpart, hrest⟩ := List.forall_mem_cons.1 h
    cases rest with
    | nil => exact String.intercalate_singleton ▸ hpart
    | cons next rest =>
      rw [String.intercalate_cons_cons]
      exact (hpart.append (word (by decide))).append (ih hrest)

/-- A closing bracket bears a dot. -/
theorem bracketed (h : Anchored text) : Firm (bracketed text) :=
  .behind ((word (by decide)).append h) (.word (by decide) (by decide))

theorem quoted (h : Anchored text) : Anchored (quoted text) :=
  ((word (by decide)).append h).append (word (by decide))

theorem toString (n : Nat) : Anchored (toString n) := by
  refine word fun hc => ?_
  exact absurd (isDigit_of_mem_toString hc) (by decide)

end Anchored

end Text

open Text

/-! ## Leaves of the tree -/

theorem BinaryOp.dot_not_mem_token (op : BinaryOp) : '.' ∉ op.token.toList := by
  cases op with
  | pattern op => cases op <;> decide
  | regexp word => cases word <;> decide
  | document op => cases op <;> decide
  | _ => decide

theorem ComparisonOp.dot_not_mem_token (op : ComparisonOp) : '.' ∉ op.token.toList := by
  cases op with
  | notEquals sign => cases sign <;> decide
  | _ => decide

theorem Alias.anchored_text {label : Alias} (hs : ∀ s ∈ label.strings, Clean s.text) :
    Anchored label.text := by
  have hjoiner : Anchored label.joiner := by
    unfold joiner
    split <;> exact .word (by decide)
  have hname : Clean label.name := hs (.plain label.name) (List.mem_singleton.2 rfl)
  exact hjoiner.append hname.anchored

namespace Table

theorem firm_fullName {table : Table} (hs : ∀ s ∈ table.strings, Clean s.text)
    (hne : table.fullName ≠ "") : Firm table.fullName := by
  simp only [strings, List.forall_mem_append, List.forall_mem_cons, List.forall_mem_map] at hs
  obtain ⟨hschema, hname, -⟩ := hs
  have hname : Clean table.name := hname
  unfold fullName at hne ⊢
  split at hne
  · exact hname.firm hne
  · next schema h =>
    have hschema : Clean schema := hschema schema (by simp [h])
    split_ifs at hne ⊢ with hnameEmpty hschemaEmpty
    · exact hschema.firm hne
    · exact hname.firm hne
    · -- Schema and name are joined by a dot only if neither is empty.
      exact .behind ((hschema.firm hschemaEmpty).append_dotted (by decide))
        (hname.firm hnameEmpty)

theorem firm_qualifier {table : Table} (hs : ∀ s ∈ table.strings, Clean s.text)
    (hne : table.qualifier ≠ "") : Firm table.qualifier := by
  unfold qualifier at hne ⊢
  split at hne
  · next label h =>
    simp only [strings, List.forall_mem_append, List.forall_mem_cons, List.forall_mem_flatMap] at hs
    have hlabel : Clean label.name :=
      hs.2.2 label (by simp [h]) (.plain label.name) (List.mem_singleton.2 rfl)
    exact hlabel.firm hne
  · exact firm_fullName hs hne

theorem anchored_text {table : Table} (hs : ∀ s ∈ table.strings, Clean s.text) :
    Anchored table.text := by
  have hname : Anchored table.fullName := by
    by_cases hempty : table.fullName = ""
    · exact hempty ▸ (.word (by decide))
    · exact (firm_fullName hs hempty).anchored
  simp only [strings, List.forall_mem_append, List.forall_mem_cons, List.forall_mem_flatMap] at hs
  obtain ⟨-, -, hlabel⟩ := hs
  exact hname.append (.ofOption fun label hl => Alias.anchored_text (hlabel label hl))

end Table

theorem Column.anchored_text {column : Column} (hs : ∀ s ∈ column.strings, Clean s.text) :
    Anchored column.text := by
  simp only [strings, List.forall_mem_append, List.forall_mem_flatMap,
    List.forall_mem_singleton] at hs
  obtain ⟨htable, hname⟩ := hs
  have hname : Clean column.name := hname
  unfold text
  split
  · exact hname.anchored
  · next table h =>
    split_ifs with hempty
    · exact hname.anchored
    · have hqualifier := Table.firm_qualifier (htable table (by simp [h])) hempty
      exact (hqualifier.append_dotted (by decide)).append hname.anchored

theorem PathStep.anchored_text {step : PathStep} (hs : ∀ s ∈ step.strings, Clean s.text) :
    Anchored step.text := by
  have hop : Anchored step.op.token := by cases step.op <;> exact .word (by decide)
  have hkey : Clean step.key := hs (.plain step.key) (List.mem_singleton.2 rfl)
  exact hop.append hkey.anchored

/-! ### Temporal values -/

theorem Date.anchored_chars (d : Date) : Anchored (String.ofList d.chars) := by
  refine .word ?_
  rw [String.toList_ofList]
  intro hc
  rcases d.spelling_chars.isDigit_or _ hc with h | h | h <;> revert h <;> decide

theorem Digits.Spell.clean {width n : Nat} {digits : List Char} (h : Digits.Spell width digits n) :
    Clean (String.ofList digits) := by
  intro c hc hmem
  rw [String.toList_ofList] at hc
  have hdigit := h.isDigit c hc
  simp only [List.mem_cons, List.not_mem_nil, or_false] at hmem
  rcases hmem with rfl | rfl | rfl | rfl <;> cases hdigit

theorem Time.FractionSpelling.dot_not_mem_tail {n : Nat} {chars : List Char}
    (h : FractionSpelling n chars) : '.' ∉ chars.tail := by
  cases h with
  | whole => exact List.not_mem_nil
  | digits _ hdigits => simpa using hdigits.clean.dot_not_mem

/-- The point of a fraction stands behind the digits of the seconds. -/
theorem Time.FullSpelling.anchored {t : Time} {chars : List Char} (h : t.FullSpelling chars) :
    Anchored (String.ofList chars) := by
  obtain ⟨hhour, hminute, hsecond, hfraction⟩ := h
  rename_i hour minute second fraction
  have hclock : Anchored (String.ofList (hour ++ ':' :: minute ++ [':'])) := by
    refine .word ?_
    simpa using And.intro hhour.clean.dot_not_mem hminute.clean.dot_not_mem
  have hseconds : Firm (String.ofList second) := by
    refine hsecond.clean.firm fun hempty => ?_
    have hlength := hsecond.length_eq
    simp [String.ofList_eq_empty_iff.1 hempty] at hlength
  have hpoint : '.' ∉ (String.ofList fraction).toList.tail :=
    String.toList_ofList ▸ hfraction.dot_not_mem_tail
  have hsplit : hour ++ ':' :: minute ++ ':' :: second ++ fraction =
      hour ++ ':' :: minute ++ [':'] ++ second ++ fraction := by simp
  rw [hsplit, String.ofList_append, String.ofList_append]
  exact (Firm.behind hclock hseconds).append_dotted hpoint

theorem Timestamp.anchored_text (t : Timestamp) : Anchored t.text := by
  have hblank : Anchored (String.singleton ' ') := .word (by decide)
  rw [text, joined, ← List.singleton_append, String.ofList_append, String.ofList_append]
  exact t.date.anchored_chars.append (hblank.append t.time.spelling_chars.anchored)

namespace Literal

theorem anchored_escapeForm {keyword value : String} (hkeyword : Anchored keyword)
    (hvalue : Anchored value) : Anchored (escapeForm keyword value) := by
  have hopening : Anchored "\x7b" := .word (by decide)
  have hquote : Anchored " '" := .word (by decide)
  have hclosing : Anchored "'\x7d" := .word (by decide)
  exact (((hopening.append hkeyword).append hquote).append hvalue).append hclosing

theorem anchored_text {l : Literal} (hs : ∀ s ∈ l.strings, Clean s.text) : Anchored l.text := by
  cases l with
  | long spelling => exact (hs (.plain spelling) (List.mem_singleton.2 rfl)).anchored
  | double spelling => exact (hs (.plain spelling) (List.mem_singleton.2 rfl)).anchored
  | hex spelling => exact (hs (.plain spelling) (List.mem_singleton.2 rfl)).anchored
  | string value =>
    simp only [strings, QuotedText.strings, List.forall_mem_append, List.forall_mem_map,
      List.forall_mem_singleton] at hs
    obtain ⟨hmarker, hvalue⟩ := hs
    have hmarkerText : Anchored (ofOption value.marker id) :=
      .ofOption fun marker hm => (hmarker marker hm).anchored
    exact hmarkerText.append hvalue.anchored.quoted
  | date value => exact anchored_escapeForm (.word (by decide)) value.anchored_chars
  | time value => exact anchored_escapeForm (.word (by decide)) value.spelling_chars.anchored
  | timestamp value => exact anchored_escapeForm (.word (by decide)) value.anchored_text
  | dateTime word value =>
    have hword : Anchored word.token := by cases word <;> exact .word (by decide)
    have hvalue : Clean value := hs (.quoted value) (List.mem_singleton.2 rfl)
    exact (hword.append (.word (by decide))).append hvalue.anchored.quoted
  | null => exact .word (by decide)

end Literal

theorem Parameter.anchored_text {p : Parameter} (hs : ∀ s ∈ p.strings, Clean s.text) :
    Anchored p.text := by
  have hcolon : Anchored ":" := .word (by decide)
  have hmark : Anchored "?" := .word (by decide)
  cases p with
  | positional index => exact hmark.append (.ofOption fun n _ => .toString n.toNat)
  | named name typeSuffix =>
    obtain ⟨hname, hsuffix⟩ := List.forall_mem_cons.1 hs
    exact (hcolon.append hname.anchored).append
      (.ofOption fun t ht => (List.forall_mem_map.1 hsuffix t ht).anchored)
  | numeric index => exact hcolon.append (.toString index.toNat)
  | markup typeSuffix =>
    exact hmark.append (.ofOption fun t ht => (List.forall_mem_map.1 hs t ht).anchored)

namespace DataType

theorem anchored_withPrecision {name : String} (hname : Anchored name)
    (precision scale : Option UInt16) : Anchored (withPrecision name precision scale) := by
  have hcomma : Anchored ", " := .word (by decide)
  have hopen : Anchored "(" := .word (by decide)
  have hclose : Anchored ")" := .word (by decide)
  unfold withPrecision
  split
  · exact ((((hname.append hopen).append (.toString _)).append hcomma).append
      (.toString _)).append hclose
  · exact ((hname.append hopen).append (.toString _)).append hclose
  · exact hname

theorem anchored_withLength {name : String} (hname : Anchored name) (length : Option UInt32) :
    Anchored (withLength name length) := by
  have hopen : Anchored "(" := .word (by decide)
  have hclose : Anchored ")" := .word (by decide)
  unfold withLength
  split
  · exact ((hname.append hopen).append (.toString _)).append hclose
  · exact hname

theorem anchored_sql {type : DataType} (hs : ∀ s ∈ type.strings, Clean s.text) :
    Anchored type.sql := by
  induction type with
  | decimal precision scale => exact anchored_withPrecision (.word (by decide)) precision scale
  | numeric precision scale => exact anchored_withPrecision (.word (by decide)) precision scale
  | char length => exact anchored_withLength (.word (by decide)) length
  | varchar length => exact anchored_withLength (.word (by decide)) length
  | varbinary length => exact anchored_withLength (.word (by decide)) length
  | array element ih => exact (ih hs).append (.word (by decide))
  | custom name => exact (hs (.plain name) (List.mem_singleton.2 rfl)).anchored
  | _ => exact .word (by decide)

end DataType

theorem Hint.anchored_text {hint : Hint} (hs : ∀ s ∈ hint.strings, Clean s.text) :
    Anchored hint.text := by
  have hopening : Anchored hint.opening := by
    unfold opening
    split <;> exact .word (by decide)
  have hclosing : Anchored hint.closing := by
    unfold closing
    split <;> exact .word (by decide)
  have hvalue : Clean hint.value := hs (.plain hint.value) (List.mem_singleton.2 rfl)
  exact (hopening.append hvalue.anchored).append hclosing

/-! ## Clauses

Here the texts of all sub-expressions are anchored, those included that are not written. That those
that are written are enough is a matter of nodes (`Node.anchored_text`). -/

section Clauses

variable {ε : Type} {strings : ε → List TreeString} {text : ε → String}
  (ht : ∀ e, Anchored (text e))

include ht

namespace Arguments

theorem anchored_list (arguments : List ε) : Anchored (commaSeparated (arguments.map text)) :=
  .commaSeparated (List.forall_mem_map.2 fun e _ => ht e)

theorem firm_bracketed (arguments : List ε) : Firm (Arguments.text true (arguments.map text)) :=
  (anchored_list ht arguments).bracketed

end Arguments

namespace OrderKey

theorem anchored_text (key : OrderKey ε) : Anchored (key.map text).text := by
  have hdirection : ∀ d : Direction, Anchored (suffix d.token) := by
    intro d
    cases d <;> exact .word (by decide)
  have hnulls : ∀ n : NullPlacement, Anchored (suffix n.token) := by
    intro n
    cases n <;> exact .word (by decide)
  exact ((ht key.expr).append (.ofOption fun d _ => hdirection d)).append
    (.ofOption fun n _ => hnulls n)

theorem anchored_clauseText {intro : String} (hintro : Anchored intro) (keys : List (OrderKey ε)) :
    Anchored (clauseText intro (keys.map (OrderKey.map text))) := by
  have hkeys : Anchored (commaSeparated ((keys.map (OrderKey.map text)).map OrderKey.text)) :=
    .commaSeparated
      (List.forall_mem_map.2 (List.forall_mem_map.2 fun key _ => key.anchored_text ht))
  unfold clauseText
  split
  · exact .word (by decide)
  · exact hintro.append hkeys

end OrderKey

theorem Keep.anchored_text {keep : Keep ε} (hs : ∀ s ∈ (keep.map strings).strings, Clean s.text) :
    Anchored (keep.map text).text := by
  have hclose : Anchored ")" := .word (by decide)
  have hopening : Anchored "KEEP (" := .word (by decide)
  have hname : Clean keep.name := (List.forall_mem_cons.1 hs).1
  have hrank : Anchored (keep.map text).rank := by
    unfold rank
    split <;> exact .word (by decide)
  have hword : Anchored " ORDER BY " := .word (by decide)
  have horder := OrderKey.anchored_clauseText ht hword keep.orderBy
  exact (((hopening.append hname.anchored).append hrank).append horder).append hclose

theorem FrameBound.anchored_text (bound : FrameBound ε) : Anchored (bound.map text).text := by
  cases bound with
  | unboundedPreceding => exact .word (by decide : '.' ∉ "UNBOUNDED PRECEDING".toList)
  | unboundedFollowing => exact .word (by decide : '.' ∉ "UNBOUNDED FOLLOWING".toList)
  | currentRow => exact .word (by decide : '.' ∉ "CURRENT ROW".toList)
  | preceding offset => exact (ht offset).append (.word (by decide))
  | following offset => exact (ht offset).append (.word (by decide))

theorem Frame.anchored_text (frame : Frame ε) : Anchored (frame.map text).text := by
  have hblank : Anchored " " := .word (by decide)
  have hunit : Anchored frame.unit.token := by cases frame.unit <;> exact .word (by decide)
  have hextent : Anchored (frame.extent.map text).text := by
    cases frame.extent with
    | single bound => exact bound.anchored_text ht
    | between start stop =>
      have hbetween : Anchored "BETWEEN " := .word (by decide)
      have hand : Anchored " AND " := .word (by decide)
      exact ((hbetween.append (start.anchored_text ht)).append hand).append (stop.anchored_text ht)
  exact (hunit.append hblank).append hextent

theorem When.anchored_text (branch : When ε) : Anchored (branch.map text).text := by
  have hblank : Anchored " " := .word (by decide)
  have hwhen : Anchored "WHEN " := .word (by decide)
  have hthen : Anchored " THEN " := .word (by decide)
  exact (((hwhen.append (ht branch.condition)).append hthen).append
    (ht branch.result)).append hblank

theorem Case.anchored_text (c : Case ε) : Anchored (c.map text).text := by
  have hblank : Anchored " " := .word (by decide)
  have hcase : Anchored "CASE " := .word (by decide)
  have helse : Anchored "ELSE " := .word (by decide)
  have hend : Anchored "END" := .word (by decide)
  have hbranches : Anchored (String.join ((c.branches.map (When.map text)).map When.text)) :=
    .join (List.forall_mem_map.2 (List.forall_mem_map.2 fun branch _ => branch.anchored_text ht))
  refine (((hcase.append ?_).append hbranches).append ?_).append hend
  · exact .ofOption_map fun e _ => (ht e).append hblank
  · exact .ofOption_map fun e _ => (helse.append (ht e)).append hblank

namespace Call

theorem firm_argumentsText (call : Call ε) : Firm (call.map text).argumentsText := by
  have hblank : Anchored " " := .word (by decide)
  have hopen : Anchored "(" := .word (by decide)
  obtain ⟨name, arguments, quantifier, allColumns, escaped, field, keep⟩ := call
  cases arguments with
  | none =>
    have hempty : Firm (if allColumns then "(*)" else "()") := by
      cases allColumns <;> exact .word (by decide) (by decide)
    exact hempty
  | some arguments =>
    cases quantifier with
    | none => exact Arguments.firm_bracketed ht arguments
    | some quantifier =>
      have hquantifier : Anchored quantifier.token := by
        cases quantifier <;> exact .word (by decide)
      exact .behind (((hopen.append hquantifier).append hblank).append
        (Arguments.anchored_list ht arguments)) (.word (by decide) (by decide))

/-- The dot in front of a field stands behind the closing bracket of the arguments. -/
theorem anchored_text {call : Call ε} (hs : ∀ s ∈ (call.map strings).strings, Clean s.text) :
    Anchored (call.map text).text := by
  simp only [Call.strings, Call.map, List.forall_mem_append, List.forall_mem_cons,
    List.forall_mem_flatMap, Option.toList_map, List.forall_mem_map] at hs
  obtain ⟨⟨⟨hname, -⟩, hfield⟩, hkeep⟩ := hs
  have hname : Clean call.name := hname
  have hblank : Anchored " " := .word (by decide)
  have hescape : Anchored "\x7bfn " := .word (by decide)
  have hclosing : Anchored "\x7d" := .word (by decide)
  have hhead : Firm (onlyIf call.escaped "\x7bfn " ++ call.name ++ (call.map text).argumentsText) :=
    .behind ((hescape.onlyIf _).append hname.anchored) (call.firm_argumentsText ht)
  have hfieldText : '.' ∉ (ofOption call.field fun f => "." ++ f).toList.tail := by
    cases hf : call.field with
    | none => exact List.not_mem_nil
    | some f =>
      have hclean : Clean f := hfield f (by simp [hf])
      simpa [ofOption] using hclean.dot_not_mem
  have hkeepText : Anchored (ofOption (call.keep.map (Keep.map text)) fun k => " " ++ k.text) :=
    .ofOption_map fun k hk => hblank.append (k.anchored_text ht (hkeep k hk))
  exact ((hhead.append_dotted hfieldText).append hkeepText).append (hclosing.onlyIf _)

end Call

namespace Analytic

theorem anchored_argumentsText (a : Analytic ε) : Anchored (a.map text).argumentsText := by
  have hcomma : Anchored ", " := .word (by decide)
  have hstar : Anchored "*" := .word (by decide)
  obtain ⟨name, kind, argument, offset, defaultValue, allColumns, distinct, ignoreNulls, keep,
    partitionBy, orderBy, frame⟩ := a
  cases argument with
  | none => exact hstar.onlyIf allColumns
  | some argument =>
    refine (ht argument).append (.ofOption_map fun offset _ => ?_)
    exact (hcomma.append (ht offset)).append
      (.ofOption_map fun value _ => hcomma.append (ht value))

theorem anchored_partitionText (a : Analytic ε) : Anchored (a.map text).partitionText := by
  have hblank : Anchored " " := .word (by decide)
  have hword : Anchored "PARTITION BY " := .word (by decide)
  unfold partitionText
  split
  · exact .word (by decide)
  · exact (hword.append (Arguments.anchored_list ht a.partitionBy)).append hblank

theorem anchored_orderText (a : Analytic ε) : Anchored (a.map text).orderText := by
  have hblank : Anchored " " := .word (by decide)
  have hword : Anchored "ORDER BY " := .word (by decide)
  have hclause := OrderKey.anchored_clauseText ht hword a.orderBy
  unfold orderText
  split
  · exact .word (by decide)
  · exact hclause.append (.ofOption_map fun f _ => hblank.append (f.anchored_text ht))

theorem anchored_text {a : Analytic ε} (hs : ∀ s ∈ (a.map strings).strings, Clean s.text) :
    Anchored (a.map text).text := by
  simp only [Analytic.strings, Analytic.map, List.forall_mem_append, List.forall_mem_cons,
    List.forall_mem_flatMap, Option.toList_map, List.forall_mem_map] at hs
  obtain ⟨⟨⟨⟨⟨⟨⟨hname, -⟩, -⟩, -⟩, hkeep⟩, -⟩, -⟩, -⟩ := hs
  have hname : Clean a.name := hname
  have hblank : Anchored " " := .word (by decide)
  have hopen : Anchored "(" := .word (by decide)
  have hclose : Anchored ")" := .word (by decide)
  have hdistinct : Anchored "DISTINCT " := .word (by decide)
  have hnulls : Anchored " IGNORE NULLS" := .word (by decide)
  have hbehind : Anchored ") " := .word (by decide)
  have hkind : Anchored a.kind.token := by cases a.kind <;> exact .word (by decide)
  have hwindow : Anchored " (" := .word (by decide)
  have hkeepText : Anchored (ofOption (a.keep.map (Keep.map text)) fun k => k.text ++ " ") :=
    .ofOption_map fun k hk => (k.anchored_text ht (hkeep k hk)).append hblank
  have hcall := ((((hname.anchored.append hopen).append (hdistinct.onlyIf a.distinct)).append
    (a.anchored_argumentsText ht)).append (hnulls.onlyIf a.ignoreNulls)).append hbehind
  exact (((((hcall.append hkeepText).append hkind).append hwindow).append
    (a.anchored_partitionText ht)).append (a.anchored_orderText ht)).append hclose

end Analytic

theorem GroupConcat.anchored_text {g : GroupConcat ε}
    (hs : ∀ s ∈ (g.map strings).strings, Clean s.text) : Anchored (g.map text).text := by
  simp only [GroupConcat.strings, GroupConcat.map, List.forall_mem_append,
    List.forall_mem_map] at hs
  obtain ⟨-, hseparator⟩ := hs
  have hclose : Anchored ")" := .word (by decide)
  have hopening : Anchored "GROUP_CONCAT(" := .word (by decide)
  have hdistinct : Anchored "DISTINCT " := .word (by decide)
  have horder : Anchored " ORDER BY " := .word (by decide)
  have hword : Anchored " SEPARATOR " := .word (by decide)
  have hclause := OrderKey.anchored_clauseText ht horder g.orderBy
  have hseparatorText : Anchored (ofOption g.separator fun s => " SEPARATOR " ++ quoted s) :=
    .ofOption fun s hmem => hword.append (hseparator s hmem).anchored.quoted
  exact ((((hopening.append (hdistinct.onlyIf g.distinct)).append
    (Arguments.anchored_list ht g.arguments)).append hclause).append hseparatorText).append hclose

end Clauses

/-! ## Queries -/

section Queries

variable {ε : Type}

/-- The tables whose columns are all selected by an item for one table. -/
def SelectItem.starred : SelectItem ε → List Table
  | tableColumns table => [table]
  | _ => []

/-- The tables that are starred in the select list. -/
def Select.starred (select : Select ε) : List Table :=
  select.items.flatMap SelectItem.starred

/-- The tables that are starred in any select of the query. -/
def Query.starred : Query ε → List Table
  | plain select => select.starred
  | compound _ _ left right => left.starred ++ right.starred

/-- The tables that are starred in the common tables or in the query. -/
def SubQuery.starred (sub : SubQuery ε) : List Table :=
  sub.commonTables.flatMap (fun table => table.query.starred) ++ sub.query.starred

/-- Only a query among items can star a table. -/
def Items.starred : Items ε → List Table
  | query sub => sub.starred
  | _ => []

/-- Only items on the left side can star a table. -/
def Member.starred : Member ε → List Table
  | items is => is.starred
  | _ => []

/-- The tables that are starred in the queries of a node. -/
def Node.starred : Node ε → List Table
  | membership member items _ _ => member.starred ++ items.starred
  | subQuery query => query.starred
  | allOf query => query.starred
  | anyOf _ query => query.starred
  | _ => []

end Queries

/-! ### Qualifiers that are not empty -/

section Qualified

variable {ε : Type} {strings : ε → List TreeString} {text : ε → String}
  (ht : ∀ e, Anchored (text e))

include ht

theorem SelectItem.anchored_text {item : SelectItem ε}
    (hs : ∀ s ∈ (item.map strings).strings, Clean s.text)
    (hstar : ∀ table ∈ item.starred, table.qualifier ≠ "") : Anchored (item.map text).text := by
  cases item with
  | allColumns => exact .word (by decide : '.' ∉ "*".toList)
  | tableColumns table =>
    have hne : table.qualifier ≠ "" := hstar table (List.mem_singleton.2 rfl)
    exact (Table.firm_qualifier hs hne).append_dotted (by decide)
  | expr e label =>
    have hlabel := List.forall_mem_flatMap.1 (List.forall_mem_append.1 hs).2
    exact (ht e).append (.ofOption fun l hl => Alias.anchored_text (hlabel l hl))

theorem Select.anchored_groupText (select : Select ε) : Anchored (select.map text).groupText := by
  have hword : Anchored " GROUP BY " := .word (by decide)
  unfold groupText
  split
  · exact .word (by decide)
  · exact hword.append (Arguments.anchored_list ht select.groupBy)

theorem Select.anchored_text {select : Select ε}
    (hs : ∀ s ∈ (select.map strings).strings, Clean s.text)
    (hstar : ∀ table ∈ select.starred, table.qualifier ≠ "") :
    Anchored (select.map text).text := by
  simp only [Select.strings, Select.map, List.forall_mem_append, List.forall_mem_flatMap,
    List.forall_mem_map] at hs
  obtain ⟨⟨⟨⟨⟨⟨hitems, hsource⟩, -⟩, -⟩, -⟩, -⟩, -⟩ := hs
  have hselect : Anchored "SELECT " := .word (by decide)
  have hdistinct : Anchored "DISTINCT " := .word (by decide)
  have hfrom : Anchored " FROM " := .word (by decide)
  have horder : Anchored " ORDER BY " := .word (by decide)
  have hlist : Anchored
      (commaSeparated ((select.items.map (SelectItem.map text)).map SelectItem.text)) := by
    refine .commaSeparated (List.forall_mem_map.2 (List.forall_mem_map.2 fun item hi => ?_))
    exact item.anchored_text ht (hitems item hi) (List.forall_mem_flatMap.1 hstar item hi)
  have hclause : ∀ {word : String} {part : Option ε}, Anchored word →
      Anchored (ofOption (part.map text) fun e => word ++ e) :=
    fun hword => .ofOption_map fun e _ => hword.append (ht e)
  have hsourceText : Anchored (ofOption select.source fun table => " FROM " ++ table.text) :=
    .ofOption fun table hmem => hfrom.append (Table.anchored_text (hsource table hmem))
  exact (((((((hselect.append (hdistinct.onlyIf _)).append hlist).append hsourceText).append
    (hclause (.word (by decide)))).append (select.anchored_groupText ht)).append
    (hclause (.word (by decide)))).append
    (OrderKey.anchored_clauseText ht horder select.orderBy)).append (hclause (.word (by decide)))

theorem Query.anchored_text {query : Query ε} (hs : ∀ s ∈ (query.map strings).strings, Clean s.text)
    (hstar : ∀ table ∈ query.starred, table.qualifier ≠ "") : Anchored (query.map text).text := by
  induction query with
  | plain select => exact select.anchored_text ht hs hstar
  | compound op all left right ihl ihr =>
    obtain ⟨hsl, hsr⟩ := List.forall_mem_append.1 hs
    obtain ⟨hl, hr⟩ := List.forall_mem_append.1 hstar
    have hjoiner : Anchored (op.joiner all) := by
      cases op <;> cases all <;> exact .word (by decide)
    exact ((ihl hsl hl).append hjoiner).append (ihr hsr hr)

omit ht in
theorem CommonTable.anchored_columnsText {columns : List String}
    (h : ∀ column ∈ columns, Clean column) : Anchored (columnsText columns) := by
  have hclose : Anchored ")" := .word (by decide)
  have hopening : Anchored " (" := .word (by decide)
  unfold columnsText
  split
  · exact .word (by decide)
  · exact (hopening.append (.commaSeparated fun column hc =>
      (h column hc).anchored)).append hclose

theorem CommonTable.anchored_text {table : CommonTable ε}
    (hs : ∀ s ∈ (table.map strings).strings, Clean s.text)
    (hstar : ∀ starred ∈ table.query.starred, starred.qualifier ≠ "") :
    Anchored (table.map text).text := by
  simp only [CommonTable.strings, CommonTable.map, List.forall_mem_append, List.forall_mem_cons,
    List.forall_mem_map] at hs
  obtain ⟨⟨hname, hcolumns⟩, hquery⟩ := hs
  have hname : Clean table.name := hname
  have hclose : Anchored ")" := .word (by decide)
  have hopening : Anchored " AS (" := .word (by decide)
  exact (((hname.anchored.append (anchored_columnsText hcolumns)).append hopening).append
    (table.query.anchored_text ht hquery hstar)).append hclose

theorem SubQuery.anchored_text {sub : SubQuery ε}
    (hs : ∀ s ∈ (sub.map strings).strings, Clean s.text)
    (hstar : ∀ table ∈ sub.starred, table.qualifier ≠ "") : Anchored (sub.map text).text := by
  simp only [SubQuery.strings, SubQuery.map, List.forall_mem_append, List.forall_mem_flatMap,
    List.forall_mem_map] at hs
  simp only [SubQuery.starred, List.forall_mem_append, List.forall_mem_flatMap] at hstar
  have hblank : Anchored " " := .word (by decide)
  have hopen : Anchored "(" := .word (by decide)
  have hclose : Anchored ")" := .word (by decide)
  have hword : Anchored "WITH " := .word (by decide)
  have htables : Anchored
      (commaSeparated ((sub.commonTables.map (CommonTable.map text)).map CommonTable.text)) := by
    refine .commaSeparated (List.forall_mem_map.2 (List.forall_mem_map.2 fun table hmem => ?_))
    exact table.anchored_text ht (hs.2 table hmem) (hstar.1 table hmem)
  have hwith : Anchored (sub.map text).withText := by
    unfold withText
    split
    · exact .word (by decide)
    · exact (hword.append htables).append hblank
  exact (((hopen.onlyIf _).append hwith).append
    (sub.query.anchored_text ht hs.1 hstar.2)).append (hclose.onlyIf _)

theorem Items.anchored_text {items : Items ε} (hs : ∀ s ∈ (items.map strings).strings, Clean s.text)
    (hstar : ∀ table ∈ items.starred, table.qualifier ≠ "") : Anchored (items.map text).text := by
  cases items with
  | list values => exact (Arguments.firm_bracketed ht values).anchored
  | rows lists =>
    refine .commaSeparated (List.forall_mem_map.2 (List.forall_mem_map.2 fun list _ => ?_))
    exact (Arguments.firm_bracketed ht list).anchored
  | query sub => exact sub.anchored_text ht hs hstar

theorem Member.anchored_text (join : OuterJoin) {member : Member ε}
    (hs : ∀ s ∈ (member.map strings).strings, Clean s.text)
    (hstar : ∀ table ∈ member.starred, table.qualifier ≠ "") :
    Anchored ((member.map text).text join) := by
  have hmark : Anchored OuterJoin.mark := .word (by decide)
  cases member with
  | expr e => exact (ht e).append (hmark.onlyIf _)
  | items is => exact is.anchored_text ht hs hstar

/-- The text of a node is anchored if those of its sub-expressions are, whichever of them are
written. -/
theorem Node.anchored_text_of_forall {n : Node ε}
    (hs : ∀ s ∈ (n.map strings).strings, Clean s.text)
    (hstar : ∀ table ∈ n.starred, table.qualifier ≠ "") : Anchored (n.map text).text := by
  have hblank : Anchored " " := .word (by decide)
  have hclose : Anchored ")" := .word (by decide)
  have hnegation : ∀ negated, Anchored (negationText negated) :=
    fun negated => (Anchored.word (by decide)).onlyIf negated
  have htest : ∀ negated, Anchored (testNegationText negated) :=
    fun negated => (Anchored.word (by decide)).onlyIf negated
  have hmark : Anchored OuterJoin.mark := .word (by decide)
  cases n with
  | binary left op right negated =>
    have hop : Anchored op.token := .word op.dot_not_mem_token
    exact (((((hnegation negated).append (ht left)).append hblank).append hop).append
      hblank).append (ht right)
  | comparison left op right negated join =>
    have hop : Anchored op.token := .word op.dot_not_mem_token
    exact (((((((hnegation negated).append (ht left)).append (hmark.onlyIf _)).append
      hblank).append hop).append hblank).append (ht right)).append (hmark.onlyIf _)
  | like left right negated ignoreCase escape =>
    have hescape := List.forall_mem_map.1 (List.forall_mem_append.1 hs).2
    have hword : Anchored (likeWord ignoreCase) := by cases ignoreCase <;> exact .word (by decide)
    have hescapeWord : Anchored " ESCAPE " := .word (by decide)
    refine ((((((hnegation negated).append (ht left)).append hblank).append hword).append
      hblank).append (ht right)).append ?_
    exact .ofOption fun e he => hescapeWord.append (hescape e he).anchored.quoted
  | between e start stop negated =>
    have hbetween : Anchored " BETWEEN " := .word (by decide)
    have hand : Anchored " AND " := .word (by decide)
    exact (((((ht e).append (htest negated)).append hbetween).append (ht start)).append
      hand).append (ht stop)
  | membership member items negated join =>
    obtain ⟨hsm, hsi⟩ := List.forall_mem_append.1 hs
    obtain ⟨hm, hi⟩ := List.forall_mem_append.1 hstar
    have hin : Anchored " IN " := .word (by decide)
    exact (((member.anchored_text ht join hsm hm).append (htest negated)).append hin).append
      (items.anchored_text ht hsi hi)
  | isNull e negated oneWord =>
    have hnull : Anchored (nullTest negated oneWord) := by
      cases negated <;> cases oneWord <;> exact .word (by decide)
    exact (ht e).append hnull
  | existence e negated =>
    have hexists : Anchored (existenceTest negated) := by
      cases negated <;> exact .word (by decide)
    exact hexists.append (ht e)
  | not e =>
    have hnot : Anchored "NOT " := .word (by decide)
    exact hnot.append (ht e)
  | signed sign e =>
    have hsign : Anchored sign.token := by cases sign <;> exact .word (by decide)
    exact hsign.append (ht e)
  | brackets e negated => exact (hnegation negated).append (ht e).bracketed.anchored
  | case c => exact c.anchored_text ht
  | call c => exact c.anchored_text ht hs
  | analytic a => exact a.anchored_text ht hs
  | groupConcat g => exact g.anchored_text ht hs
  | cast e type keyword =>
    have htype : Anchored type.sql := DataType.anchored_sql (List.forall_mem_append.1 hs).2
    have hopening : Anchored "CAST(" := .word (by decide)
    have has : Anchored " AS " := .word (by decide)
    have hcolons : Anchored "::" := .word (by decide)
    cases keyword with
    | true => exact (((hopening.append (ht e)).append has).append htype).append hclose
    | false => exact ((ht e).append hcolons).append htype
  | extract field e =>
    have hfield : Clean field := (List.forall_mem_cons.1 hs).1
    have hopening : Anchored "EXTRACT(" := .word (by decide)
    have hfrom : Anchored " FROM " := .word (by decide)
    exact (((hopening.append hfield.anchored).append hfrom).append (ht e)).append hclose
  | interval amount unit =>
    obtain ⟨hamount, hunit⟩ := List.forall_mem_cons.1 hs
    have hamount : Clean amount := hamount
    have hword : Anchored "INTERVAL " := .word (by decide)
    refine (hword.append hamount.anchored).append (.ofOption fun u hu => ?_)
    exact hblank.append (List.forall_mem_map.1 hunit u hu).anchored
  | row name elements =>
    have hname := List.forall_mem_map.1 (List.forall_mem_append.1 hs).1
    have hnameText : Anchored (ofOption name id) :=
      .ofOption fun word hw => (hname word hw).anchored
    exact hnameText.append (Arguments.firm_bracketed ht elements).anchored
  | values elements => exact (Arguments.firm_bracketed ht elements).anchored
  | column c => exact Column.anchored_text hs
  | document c path =>
    obtain ⟨hcolumn, hpath⟩ := List.forall_mem_append.1 hs
    refine (Column.anchored_text hcolumn).append (.join (List.forall_mem_map.2 ?_))
    exact fun step hstep => PathStep.anchored_text (List.forall_mem_flatMap.1 hpath step hstep)
  | literal l => exact Literal.anchored_text hs
  | parameter p => exact Parameter.anchored_text hs
  | sessionVariable name system =>
    have hsign : Anchored (variableSign system) := by cases system <;> exact .word (by decide)
    have hname : Clean name := hs (.plain name) (List.mem_singleton.2 rfl)
    exact hsign.append hname.anchored
  | timeKey word => exact (hs (.plain word) (List.mem_singleton.2 rfl)).anchored
  | subQuery query => exact query.anchored_text ht hs hstar
  | allOf query =>
    have hall : Anchored "ALL " := .word (by decide)
    exact hall.append (query.anchored_text ht hs hstar)
  | anyOf word query =>
    have hword : Anchored word.token := by cases word <;> exact .word (by decide)
    exact (hword.append hblank).append (query.anchored_text ht hs hstar)
  | hierarchical start connect noCycle =>
    have hstart : Anchored " START WITH " := .word (by decide)
    have hconnect : Anchored " CONNECT BY " := .word (by decide)
    have hnoCycle : Anchored "NOCYCLE " := .word (by decide)
    have hstartText : Anchored (ofOption (start.map text) fun e => " START WITH " ++ e) :=
      .ofOption_map fun e _ => hstart.append (ht e)
    exact ((hstartText.append hconnect).append (hnoCycle.onlyIf noCycle)).append (ht connect)
  | hint x => exact Hint.anchored_text hs

end Qualified

/-! ### Empty qualifiers

The item for an empty qualifier is a dot and a star, behind a blank wherever it stands in its
list. -/

section Unqualified

variable {ε : Type} {table : Table} (text : ε → String)

theorem Select.loose_text {select : Select ε} (h : table ∈ select.starred)
    (hempty : table.qualifier = "") : Loose (select.map text).text := by
  obtain ⟨item, hitem, htable⟩ := List.mem_flatMap.1 h
  have hstar : (item.map text).text = ".*" := by
    cases item with
    | tableColumns other =>
      obtain rfl := List.mem_singleton.1 htable
      simp [SelectItem.map, SelectItem.text, hempty]
    | allColumns => cases htable
    | expr e label => cases htable
  have hmem : ".*" ∈ (select.items.map (SelectItem.map text)).map SelectItem.text :=
    hstar ▸ List.mem_map_of_mem (List.mem_map_of_mem hitem)
  have hstart : ("SELECT " ++ onlyIf select.distinct "DISTINCT ").toList.getLast? = some ' ' := by
    cases select.distinct <;> decide
  have hlist := Loose.of_mem_commaSeparated hstart (by decide) hmem
  exact (((((hlist.behind _).behind _).behind _).behind _).behind _).behind _

theorem Query.loose_text {query : Query ε} (h : table ∈ query.starred)
    (hempty : table.qualifier = "") : Loose (query.map text).text := by
  induction query with
  | plain select => exact select.loose_text text h hempty
  | compound op all left right ihl ihr =>
    rcases List.mem_append.1 h with h | h
    · exact ((ihl h).behind _).behind _
    · exact (ihr h).before _

theorem SubQuery.loose_text {sub : SubQuery ε} (h : table ∈ sub.starred)
    (hempty : table.qualifier = "") : Loose (sub.map text).text := by
  rcases List.mem_append.1 h with h | h
  · obtain ⟨common, hcommon, h⟩ := List.mem_flatMap.1 h
    have hquery : Loose (common.map text).text :=
      ((common.query.loose_text text h hempty).before _).behind _
    have htables : Loose
        (commaSeparated ((sub.commonTables.map (CommonTable.map text)).map CommonTable.text)) :=
      hquery.commaSeparated (List.mem_map_of_mem (List.mem_map_of_mem hcommon))
    have hne : (sub.map text).commonTables.isEmpty = false := by
      simpa [SubQuery.map] using List.ne_nil_of_mem hcommon
    have hwith : Loose (sub.map text).withText := by
      rw [withText, hne]
      exact (htables.before "WITH ").behind " "
    exact ((hwith.before _).behind _).behind _
  · exact ((sub.query.loose_text text h hempty).before _).behind _

theorem Items.loose_text {items : Items ε} (h : table ∈ items.starred)
    (hempty : table.qualifier = "") : Loose (items.map text).text := by
  cases items with
  | query sub => exact sub.loose_text text h hempty
  | list values => cases h
  | rows lists => cases h

theorem Member.loose_text (join : OuterJoin) {member : Member ε} (h : table ∈ member.starred)
    (hempty : table.qualifier = "") : Loose ((member.map text).text join) := by
  cases member with
  | expr e => cases h
  | items is => exact is.loose_text text h hempty

theorem Node.loose_text {n : Node ε} (h : table ∈ n.starred) (hempty : table.qualifier = "") :
    Loose (n.map text).text := by
  cases n with
  | membership member items negated join =>
    rcases List.mem_append.1 h with h | h
    · exact (((member.loose_text text join h hempty).behind _).behind _).behind _
    · exact (items.loose_text text h hempty).before _
  | subQuery query => exact query.loose_text text h hempty
  | allOf query => exact (query.loose_text text h hempty).before _
  | anyOf word query => exact (query.loose_text text h hempty).before _
  | _ => cases h

end Unqualified

/-! ## Expressions -/

theorem Node.anchored_text {ε : Type} {strings : ε → List TreeString} {text : ε → String}
    {n : Node ε} (hs : ∀ s ∈ (n.map strings).strings, Clean s.text)
    (hstar : ∀ table ∈ n.starred, table.qualifier ≠ "")
    (h : ∀ e ∈ n.written, Anchored (text e)) : Anchored (n.map text).text :=
  n.composed.of_parts (.word (by decide)) (fun _ hall => anchored_text_of_forall hall hs hstar) h

namespace Expr

theorem anchored_sql {e : Expr} (hs : ∀ s ∈ e.strings, Clean s.text)
    (hstar : ∀ n ∈ e.writtenNodes, ∀ table ∈ n.starred, table.qualifier ≠ "") :
    Anchored e.sql := by
  induction e using Expr.induction with
  | step n ih =>
    rw [strings_node] at hs
    rw [writtenNodes_node, List.forall_mem_cons, List.forall_mem_flatMap] at hstar
    rw [sql_node]
    refine Node.anchored_text hs hstar.1 fun part hp => ?_
    have hpart := n.written_subset hp
    exact ih part hpart (Node.forall_strings_children hs part hpart) (hstar.2 part hp)

theorem loose_sql {e : Expr} {n : Node Expr} (hn : n ∈ e.writtenNodes) {table : Table}
    (htable : table ∈ n.starred) (hempty : table.qualifier = "") : Loose e.sql := by
  induction e using Expr.induction with
  | step root ih =>
    rw [writtenNodes_node, List.mem_cons, List.mem_flatMap] at hn
    rw [sql_node]
    rcases hn with rfl | ⟨part, hp, hn⟩
    · exact n.loose_text sql htable hempty
    · -- What is written stands in the text as it is.
      have hpart := ih part (root.written_subset hp) hn
      obtain ⟨before, after, hsplit⟩ := List.append_of_mem hp
      obtain ⟨left, right, -, -, htext⟩ := (hsplit ▸ root.composed).split
      rw [htext sql]
      exact (hpart.before _).behind _

/-- If no string of a tree holds a dot, a blank, a comma or an opening bracket, every dot of its
text stands behind some character, and not behind one of these, just if no table with an empty
qualifier is starred in a query that is written. -/
theorem anchored_sql_iff (e : Expr) (hs : ∀ s ∈ e.strings, Clean s.text) :
    Anchored e.sql ↔ ∀ n ∈ e.writtenNodes, ∀ table ∈ n.starred, table.qualifier ≠ "" := by
  refine ⟨fun h n hn table htable hempty => ?_, anchored_sql hs⟩
  exact (loose_sql hn htable hempty).not_anchored h

/-- Empty schemas and names are left out with their dots, in a starred item and elsewhere. -/
theorem anchored_sql_empty_parts :
    let starred : Table := ⟨some "", "t", none⟩
    let bare := Expr.node (.column ⟨some ⟨some "", "", none⟩, "a"⟩)
    let qualified := Expr.node (.column ⟨some ⟨some "s", "t", none⟩, "b"⟩)
    let items : List (SelectItem Expr) := [.tableColumns starred, .ofExpr bare, .ofExpr qualified]
    let select := (Select.ofItems items).withSource ⟨some "s", "", none⟩
    let e := Expr.node (.subQuery (.ofQuery (.plain select)))
    (∀ s ∈ e.strings, Clean s.text) ∧ e.sql = "(SELECT t.*, a, s.t.b FROM s)" ∧
      Anchored e.sql := by
  intro starred bare qualified items select e
  have hs : ∀ s ∈ e.strings, Clean s.text := by decide +kernel
  have hqualifier : starred.qualifier ≠ "" := by decide
  have hstar : ∀ n ∈ e.writtenNodes, ∀ table ∈ n.starred, table.qualifier ≠ "" := by
    simpa [e, select, items, bare, qualified, writtenNodes_node, Node.written, Node.children,
      SubQuery.children, SubQuery.ofQuery, Query.children, Select.children, Select.ofItems,
      Select.withSource, SelectItem.children, SelectItem.ofExpr, Node.starred, SubQuery.starred,
      Query.starred, Select.starred, SelectItem.starred] using hqualifier
  exact ⟨hs, by decide +kernel, (e.anchored_sql_iff hs).2 hstar⟩

/-- The item for a table without name : its dot and its star stay behind a blank. -/
theorem not_anchored_sql_star :
    let e := Expr.node (.subQuery (.ofQuery (.plain (.ofItems [.tableColumns ⟨none, "", none⟩]))))
    (∀ s ∈ e.strings, Clean s.text) ∧ e.sql = "(SELECT .*)" ∧ ¬ Anchored e.sql := by
  intro e
  have hloose : Loose e.sql := by decide +kernel
  exact ⟨by decide +kernel, by decide +kernel, hloose.not_anchored⟩

end Expr

end SqlText
