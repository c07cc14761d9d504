import SqlText.Proofs.Temporal.Spelling
import SqlText.Proofs.Text.Openers
import SqlText.Proofs.Text.Pieces
import SqlText.Proofs.Text.Strings

/-!
# Where a text opens comments

If none of the strings of a tree opens a comment and the tree holds no hint, a comment can only be
opened where two pieces of the text meet. Nearly all pieces are kept apart by words of the grammar :
behind a sub-expression or a string stands a word that goes on with no comment, and in front of it
one that begins none (`turns_text`, one lemma for each clause).

Three kinds of nodes put pieces side by side : a sign and its operand, the column, the operators and
the keys of a document path, the name and the type suffix of a parameter (`Node.abutting`). The main
statement is that the text of a tree opens a comment just if two such pieces do so in a node that is
written (`Node.Clashes`), `Expr.opensComment_sql_iff`.
-/

namespace SqlText

open Text

/-! ## Operators -/

theorem DocumentOp.quiet_token (op : DocumentOp) : Quiet op.token := by
  cases op <;> decide

theorem BinaryOp.quiet_token (op : BinaryOp) : Quiet op.token := by
  cases op with
  | pattern op => cases op <;> decide
  | regexp op => cases op <;> decide
  | document op => exact op.quiet_token
  | _ => decide

theorem ComparisonOp.quiet_token (op : ComparisonOp) : Quiet op.token := by
  cases op with
  | notEquals sign => cases sign <;> decide
  | _ => decide

/-- Of the signs only a minus opens a comment, with a hyphen behind it. -/
theorem Sign.adjoin_token (sign : Sign) (operand : String) :
    Adjoin sign.token operand ↔ sign = .minus ∧ operand.toList.head? = some '-' := by
  cases sign <;> simp [Adjoin, Opener, token]

/-! ## Leaves of the tree -/

theorem Alias.turns_text {label : Alias} (hs : ∀ s ∈ label.strings, Quiet s.text) :
    Turns Quiet Quiet label.text := by
  have hjoiner : Turns Quiet Settled label.joiner := by
    unfold joiner
    split <;> exact .word (by decide)
  have hname : Quiet label.name := hs (.plain label.name) (List.mem_singleton.2 rfl)
  exact hjoiner.append (.quiet hname)

/-- Two names with a dot between them. -/
theorem quiet_dotted {first second : String} (hfirst : Quiet first) (hsecond : Quiet second) :
    Quiet (first ++ "." ++ second) :=
  (((Turns.quiet hfirst).append (.word (by decide))).append (.quiet hsecond)).quiet_text

namespace Table

theorem quiet_fullName {table : Table} (hs : ∀ s ∈ table.strings, Quiet s.text) :
    Quiet table.fullName := by
  simp only [strings, List.forall_mem_append, List.forall_mem_cons, List.forall_mem_map] at hs
  obtain ⟨hschema, hname, -⟩ := hs
  unfold fullName
  split
  · exact hname
  · next schema h =>
    have hschema : Quiet schema := hschema schema (by simp [h])
    split_ifs
    · exact hschema
    · exact hname
    · exact quiet_dotted hschema hname

theorem quiet_qualifier {table : Table} (hs : ∀ s ∈ table.strings, Quiet s.text) :
    Quiet table.qualifier := by
  unfold qualifier
  split
  · next label h =>
    simp only [strings, List.forall_mem_append, List.forall_mem_cons, List.forall_mem_flatMap] at hs
    exact hs.2.2 label (by simp [h]) (.plain label.name) (List.mem_singleton.2 rfl)
  · exact quiet_fullName hs

theorem turns_text {table : Table} (hs : ∀ s ∈ table.strings, Quiet s.text) :
    Turns Settled Quiet table.text := by
  have hname := quiet_fullName hs
  simp only [strings, List.forall_mem_append, List.forall_mem_cons, List.forall_mem_flatMap] at hs
  obtain ⟨-, -, hlabel⟩ := hs
  exact (Turns.quiet hname).append
    (.ofOption .empty fun label hl => Alias.turns_text (hlabel label hl))

end Table

theorem Column.quiet_text {column : Column} (hs : ∀ s ∈ column.strings, Quiet s.text) :
    Quiet column.text := by
  simp only [strings, List.forall_mem_append, List.forall_mem_flatMap,
    List.forall_mem_singleton] at hs
  obtain ⟨htable, hname⟩ := hs
  unfold text
  split
  · exact hname
  · next table h =>
    have hqualifier := Table.quiet_qualifier (htable table (by simp [h]))
    split_ifs
    · exact hname
    · exact quiet_dotted hqualifier hname

/-! ### Temporal values -/

theorem Digits.Spell.turns {width n : Nat} {digits : List Char} (h : Digits.Spell width digits n)
    (hwidth : 0 < width) : Turns Quiet Settled (String.ofList digits) := by
  refine .word (separates_of_isDigit ?_ ?_)
  · rw [String.toList_ofList]
    exact List.ne_nil_of_length_pos (h.length_eq ▸ hwidth)
  · rw [String.toList_ofList]
    exact h.isDigit

/-- Characters with a character between them. -/
theorem Text.Turns.around {P Q R S : String → Prop} {first second : List Char} {c : Char}
    (hfirst : Turns P Q (String.ofList first)) (hc : Turns Q R (String.singleton c))
    (hsecond : Turns R S (String.ofList second)) :
    Turns P S (String.ofList (first ++ c :: second)) := by
  rw [← List.singleton_append, String.ofList_append, String.ofList_append]
  exact hfirst.append (hc.append hsecond)

theorem Date.YearSpelling.turns {year : Int} {chars : List Char} (h : YearSpelling year chars) :
    Turns Settled Settled (String.ofList chars) := by
  cases h with
  | unsigned h => exact (h.turns (by decide)).ofQuiet
  | positive hmin _ h => exact Turns.empty.around (.quiet (by decide)) (h.turns (by omega))
  | negative hmin _ h => exact Turns.empty.around (.quiet (by decide)) (h.turns (by omega))

/-- Hyphens stand in front of digits, so no two of them meet. -/
theorem Date.turns_chars (d : Date) : Turns Settled Settled (String.ofList d.chars) := by
  have hhyphen : Turns Settled Quiet (String.singleton '-') := .quiet (by decide)
  have h := d.spelling_chars
  generalize d.chars = chars at h
  obtain ⟨hyear, hmonth, hday⟩ := h
  exact (hyear.turns.around hhyphen (hmonth.turns (by decide))).around hhyphen
    (hday.turns (by decide))

theorem Time.FractionSpelling.turns {n : Nat} {chars : List Char} (h : FractionSpelling n chars) :
    Turns Settled Settled (String.ofList chars) := by
  cases h with
  | whole => exact .empty
  | digits hwidth h => exact Turns.empty.around (.quiet (by decide)) (h.turns hwidth)

theorem Time.turns_chars (t : Time) : Turns Settled Settled (String.ofList t.chars) := by
  have hcolon : Turns Settled Quiet (String.singleton ':') := .quiet (by decide)
  have h := t.spelling_chars
  generalize t.chars = chars at h
  obtain ⟨hhour, hminute, hsecond, hfraction⟩ := h
  rw [String.ofList_append]
  exact (((hhour.turns (by decide)).ofQuiet.around hcolon (hminute.turns (by decide))).around hcolon
    (hsecond.turns (by decide))).append hfraction.turns

theorem Timestamp.turns_text (t : Timestamp) : Turns Settled Settled t.text := by
  have hblank : Turns Quiet Settled (String.singleton ' ') := .word (by decide)
  exact t.date.turns_chars.around hblank.ofQuiet t.time.turns_chars

namespace Literal

theorem quiet_escapeForm {keyword value : String} (hkeyword : Quiet keyword)
    (hvalue : Turns Settled Settled value) : Quiet (escapeForm keyword value) := by
  have hopening : Turns Quiet Settled "\x7b" := .word (by decide)
  have hquote : Turns Quiet Settled " '" := .word (by decide)
  have hclosing : Turns Quiet Settled "'\x7d" := .word (by decide)
  exact ((((hopening.append (.quiet hkeyword)).append hquote).append hvalue).append
    hclosing.ofQuiet).ofQuiet.toQuiet.quiet_text

theorem quiet_text {l : Literal} (hs : ∀ s ∈ l.strings, Quiet s.text) : Quiet l.text := by
  cases l with
  | long spelling => exact hs (.plain spelling) (List.mem_singleton.2 rfl)
  | double spelling => exact hs (.plain spelling) (List.mem_singleton.2 rfl)
  | hex spelling => exact hs (.plain spelling) (List.mem_singleton.2 rfl)
  | string value =>
    simp only [strings, QuotedText.strings, List.forall_mem_append, List.forall_mem_map,
      List.forall_mem_singleton] at hs
    obtain ⟨hmarker, hvalue⟩ := hs
    have hmarkerText : Turns Settled Quiet (ofOption value.marker id) :=
      .ofOption Turns.empty.toQuiet fun marker hm => .quiet (hmarker marker hm)
    exact (hmarkerText.append (.quoted hvalue)).toQuiet.quiet_text
  | date value => exact quiet_escapeForm (by decide) value.turns_chars
  | time value => exact quiet_escapeForm (by decide) value.turns_chars
  | timestamp value => exact quiet_escapeForm (by decide) value.turns_text
  | dateTime word value =>
    have hword : Quiet word.token := by cases word <;> decide
    have hvalue : Quiet value := hs (.quoted value) (List.mem_singleton.2 rfl)
    have hblank : Turns Quiet Settled " " := .word (by decide)
    have hhead := (Turns.quiet hword).append hblank
    exact (hhead.append (Turns.quoted hvalue).ofQuiet).toQuiet.quiet_text
  | null => exact (by decide : Quiet "NULL")

end Literal

namespace Parameter

/-- The pieces of a parameter : a name and the type suffix behind it, else the whole text. -/
def abutting : Parameter → List String
  | named name (some typeSuffix) => [":" ++ name, typeSuffix]
  | p => [p.text]

theorem text_eq_join_abutting (p : Parameter) : p.text = String.join p.abutting := by
  cases p with
  | named name typeSuffix => cases typeSuffix <;> simp [abutting, text, ofOption]
  | _ => simp [abutting]

/-- The colon in front of a name opens no comment, even if the name is empty. -/
theorem adjoin_colon (name next : String) : Adjoin (":" ++ name) next ↔ Adjoin name next := by
  have hlast : (":" ++ name).toList.getLast? = some (name.toList.getLast?.getD ':') := by
    rw [String.toList_append, show ":".toList = [':'] from rfl, List.singleton_append,
      List.getLast?_cons]
  unfold Adjoin
  rw [hlast]
  cases name.toList.getLast? with
  | none => simp [Opener]
  | some a => simp

theorem quiet_of_mem_abutting {p : Parameter} (hs : ∀ s ∈ p.strings, Quiet s.text) :
    ∀ piece ∈ p.abutting, Quiet piece := by
  have hcolon : Turns Quiet Settled ":" := .word (by decide)
  have hmark : Turns Quiet Settled "?" := .word (by decide)
  cases p with
  | positional index =>
    have hindex : Turns Settled Quiet (ofOption index fun n => toString n.toNat) :=
      .ofOption Turns.empty.toQuiet fun n _ => turns_toString n.toNat
    exact List.forall_mem_singleton.2 (hmark.append hindex).ofQuiet.quiet_text
  | named name typeSuffix =>
    obtain ⟨hname, hsuffix⟩ := List.forall_mem_cons.1 hs
    have hhead : Turns Quiet Quiet (":" ++ name) := hcolon.append (.quiet hname)
    cases typeSuffix with
    | none => exact List.forall_mem_singleton.2 (hhead.append .empty).ofQuiet.quiet_text
    | some typeSuffix =>
      have hsuffix : Quiet typeSuffix := hsuffix (.plain typeSuffix) (List.mem_singleton.2 rfl)
      exact List.forall_mem_cons.2 ⟨hhead.ofQuiet.quiet_text, List.forall_mem_singleton.2 hsuffix⟩
  | numeric index =>
    exact List.forall_mem_singleton.2 (hcolon.append (turns_toString _)).ofQuiet.quiet_text
  | markup typeSuffix =>
    have hsuffix : Turns Settled Quiet (ofOption typeSuffix id) :=
      .ofOption Turns.empty.toQuiet fun t ht => .quiet (List.forall_mem_map.1 hs t ht)
    exact List.forall_mem_singleton.2 (hmark.append hsuffix).ofQuiet.quiet_text

end Parameter

namespace DataType

theorem quiet_withPrecision {name : String} (hname : Quiet name) (precision scale : Option UInt16) :
    Quiet (withPrecision name precision scale) := by
  have hcomma : Turns Quiet Settled ", " := .word (by decide)
  have hopen : Turns Quiet Settled "(" := .word (by decide)
  have hclose : Turns Quiet Settled ")" := .word (by decide)
  have hhead := (Turns.quiet hname).append hopen
  unfold withPrecision
  split
  · exact ((((hhead.append (turns_toString _)).append hcomma).append (turns_toString _)).append
      hclose).toQuiet.quiet_text
  · exact ((hhead.append (turns_toString _)).append hclose).toQuiet.quiet_text
  · exact hname

theorem quiet_withLength {name : String} (hname : Quiet name) (length : Option UInt32) :
    Quiet (withLength name length) := by
  have hopen : Turns Quiet Settled "(" := .word (by decide)
  have hclose : Turns Quiet Settled ")" := .word (by decide)
  unfold withLength
  split
  · exact ((((Turns.quiet hname).append hopen).append (turns_toString _)).append
      hclose).toQuiet.quiet_text
  · exact hname

theorem quiet_sql {type : DataType} (hs : ∀ s ∈ type.strings, Quiet s.text) : Quiet type.sql := by
  induction type with
  | decimal precision scale => exact quiet_withPrecision (by decide) precision scale
  | numeric precision scale => exact quiet_withPrecision (by decide) precision scale
  | char length => exact quiet_withLength (by decide) length
  | varchar length => exact quiet_withLength (by decide) length
  | varbinary length => exact quiet_withLength (by decide) length
  | array element ih =>
    exact ((Turns.quiet (ih hs)).append (.word (by decide))).toQuiet.quiet_text
  | custom name => exact hs (.plain name) (List.mem_singleton.2 rfl)
  | _ => decide

end DataType

theorem OuterJoin.turns_mark (marked : Bool) : Turns Quiet Quiet (onlyIf marked OuterJoin.mark) :=
  (Turns.word (by decide)).toQuiet.onlyIf marked

theorem CommonTable.turns_columnsText {columns : List String}
    (hs : ∀ column ∈ columns, Quiet column) : Turns Quiet Quiet (columnsText columns) := by
  have hclose : Turns Quiet Settled ")" := .word (by decide)
  have hopening : Turns Quiet Settled " (" := .word (by decide)
  unfold columnsText
  split
  · exact .empty
  · exact ((hopening.append (.commaSeparated fun column hc => .quiet (hs column hc))).append
      hclose).toQuiet

/-! ## Clauses -/

section Clauses

variable {ε : Type} {strings : ε → List TreeString} {text : ε → String}

theorem Arguments.turns_text {arguments : List ε} (h : ∀ e ∈ arguments, Quiet (text e)) :
    Turns Settled Quiet (Arguments.text false (arguments.map text)) :=
  .commaSeparated (List.forall_mem_map.2 fun e he => .quiet (h e he))

theorem Arguments.turns_bracketed {arguments : List ε} (h : ∀ e ∈ arguments, Quiet (text e)) :
    Turns Quiet Settled (Arguments.text true (arguments.map text)) :=
  (turns_text h).bracketed

theorem OrderKey.turns_text {key : OrderKey ε} (h : ∀ e ∈ key.children, Quiet (text e)) :
    Turns Settled Quiet (key.map text).text := by
  have hexpr : Quiet (text key.expr) := h key.expr (List.mem_singleton.2 rfl)
  have hdirection : ∀ d : Direction, Turns Quiet Settled (suffix d.token) := by
    intro d
    cases d <;> exact .word (by decide)
  have hnulls : ∀ n : NullPlacement, Turns Quiet Settled (suffix n.token) := by
    intro n
    cases n <;> exact .word (by decide)
  exact ((Turns.quiet hexpr).append (.ofOption .empty fun d _ => (hdirection d).toQuiet)).append
    (.ofOption .empty fun n _ => (hnulls n).toQuiet)

theorem OrderKey.turns_clauseText {intro : String} (hintro : Turns Quiet Settled intro)
    {keys : List (OrderKey ε)} (h : ∀ e ∈ keys.flatMap children, Quiet (text e)) :
    Turns Quiet Quiet (clauseText intro (keys.map (OrderKey.map text))) := by
  have hkeys : Turns Settled Quiet
      (commaSeparated ((keys.map (OrderKey.map text)).map OrderKey.text)) := by
    refine .commaSeparated (List.forall_mem_map.2 (List.forall_mem_map.2 fun key hk => ?_))
    exact key.turns_text (List.forall_mem_flatMap.1 h key hk)
  unfold clauseText
  split
  · exact .empty
  · exact hintro.append hkeys

theorem Keep.turns_text {keep : Keep ε} (hs : ∀ s ∈ (keep.map strings).strings, Quiet s.text)
    (h : ∀ e ∈ keep.children, Quiet (text e)) : Turns Quiet Settled (keep.map text).text := by
  have hclose : Turns Quiet Settled ")" := .word (by decide)
  have hopening : Turns Quiet Settled "KEEP (" := .word (by decide)
  have hname : Quiet keep.name := (List.forall_mem_cons.1 hs).1
  have hrank : Turns Quiet Settled (keep.map text).rank := by
    unfold rank
    split <;> exact .word (by decide)
  have horder := OrderKey.turns_clauseText (.word (by decide : Separates " ORDER BY ")) h
  exact (((hopening.append (.quiet hname)).append hrank).append horder.ofQuiet).append hclose

theorem FrameBound.turns_text {bound : FrameBound ε} (h : ∀ e ∈ bound.children, Quiet (text e)) :
    Turns Settled Quiet (bound.map text).text := by
  have hpreceding : Turns Quiet Settled " PRECEDING" := .word (by decide)
  have hfollowing : Turns Quiet Settled " FOLLOWING" := .word (by decide)
  cases bound with
  | preceding offset =>
    exact ((Turns.quiet (h offset (List.mem_singleton.2 rfl))).append hpreceding).toQuiet
  | following offset =>
    exact ((Turns.quiet (h offset (List.mem_singleton.2 rfl))).append hfollowing).toQuiet
  | unboundedPreceding => exact .quiet (by decide : Quiet "UNBOUNDED PRECEDING")
  | unboundedFollowing => exact .quiet (by decide : Quiet "UNBOUNDED FOLLOWING")
  | currentRow => exact .quiet (by decide : Quiet "CURRENT ROW")

theorem FrameExtent.turns_text {extent : FrameExtent ε}
    (h : ∀ e ∈ extent.children, Quiet (text e)) : Turns Settled Quiet (extent.map text).text := by
  cases extent with
  | single bound => exact bound.turns_text h
  | between start stop =>
    obtain ⟨hstart, hstop⟩ := List.forall_mem_append.1 h
    have hbetween : Turns Quiet Settled "BETWEEN " := .word (by decide)
    have hand : Turns Quiet Settled " AND " := .word (by decide)
    exact ((hbetween.ofQuiet.append (start.turns_text hstart)).append hand).append
      (stop.turns_text hstop)

theorem Frame.turns_text {frame : Frame ε} (h : ∀ e ∈ frame.children, Quiet (text e)) :
    Turns Settled Quiet (frame.map text).text := by
  have hblank : Turns Quiet Settled " " := .word (by decide)
  have hunit : Quiet frame.unit.token := by cases frame.unit <;> decide
  exact ((Turns.quiet hunit).append hblank).append (frame.extent.turns_text h)

theorem When.turns_text {branch : When ε} (h : ∀ e ∈ branch.children, Quiet (text e)) :
    Turns Settled Settled (branch.map text).text := by
  simp only [When.children, List.forall_mem_cons] at h
  obtain ⟨hcondition, hresult, -⟩ := h
  have hblank : Turns Quiet Settled " " := .word (by decide)
  have hwhen : Turns Quiet Settled "WHEN " := .word (by decide)
  have hthen : Turns Quiet Settled " THEN " := .word (by decide)
  exact (((hwhen.ofQuiet.append (.quiet hcondition)).append hthen).append
    (.quiet hresult)).append hblank

theorem Case.turns_text {c : Case ε} (h : ∀ e ∈ c.children, Quiet (text e)) :
    Turns Settled Quiet (c.map text).text := by
  simp only [Case.children, List.forall_mem_append, List.forall_mem_flatMap] at h
  obtain ⟨⟨hoperand, hbranches⟩, hotherwise⟩ := h
  have hblank : Turns Quiet Settled " " := .word (by decide)
  have hcase : Turns Quiet Settled "CASE " := .word (by decide)
  have helse : Turns Quiet Settled "ELSE " := .word (by decide)
  have hend : Turns Quiet Settled "END" := .word (by decide)
  have hjoin : Turns Settled Settled
      (String.join ((c.branches.map (When.map text)).map When.text)) := by
    refine .join (List.forall_mem_map.2 (List.forall_mem_map.2 fun branch hb => ?_))
    exact branch.turns_text (hbranches branch hb)
  refine (((hcase.ofQuiet.append ?_).append hjoin).append ?_).append hend.ofQuiet.toQuiet
  · exact .ofOption_map .empty fun e he => (Turns.quiet (hoperand e he)).append hblank
  · exact .ofOption_map .empty fun e he =>
      (helse.ofQuiet.append (.quiet (hotherwise e he))).append hblank

theorem Call.turns_argumentsText {call : Call ε}
    (h : ∀ arguments ∈ call.arguments.toList, ∀ e ∈ arguments, Quiet (text e)) :
    Turns Quiet Settled (call.map text).argumentsText := by
  have hblank : Turns Quiet Settled " " := .word (by decide)
  have hopen : Turns Quiet Settled "(" := .word (by decide)
  have hclose : Turns Quiet Settled ")" := .word (by decide)
  obtain ⟨name, arguments, quantifier, allColumns, escaped, field, keep⟩ := call
  cases arguments with
  | none =>
    have hempty : Separates (if allColumns then "(*)" else "()") := by cases allColumns <;> decide
    exact .word hempty
  | some arguments =>
    have harguments := h arguments (List.mem_singleton.2 rfl)
    cases quantifier with
    | none => exact Arguments.turns_bracketed harguments
    | some quantifier =>
      have hquantifier : Quiet quantifier.token := by cases quantifier <;> decide
      exact (((hopen.append (.quiet hquantifier)).append hblank).append
        (Arguments.turns_text harguments)).append hclose

theorem Call.turns_text {call : Call ε} (hs : ∀ s ∈ (call.map strings).strings, Quiet s.text)
    (h : ∀ e ∈ call.children, Quiet (text e)) : Turns Settled Quiet (call.map text).text := by
  simp only [Call.strings, Call.map, List.forall_mem_append, List.forall_mem_cons,
    List.forall_mem_flatMap, Option.toList_map, List.forall_mem_map] at hs
  simp only [Call.children, List.forall_mem_append, List.forall_mem_flatten,
    List.forall_mem_flatMap] at h
  obtain ⟨⟨⟨hname, -⟩, hfield⟩, hkeep⟩ := hs
  have hname : Quiet call.name := hname
  have hblank : Turns Quiet Settled " " := .word (by decide)
  have hescape : Turns Quiet Settled "\x7bfn " := .word (by decide)
  have hdot : Turns Quiet Settled "." := .word (by decide)
  have hclosing : Turns Quiet Settled "\x7d" := .word (by decide)
  have hfieldText : Turns Quiet Quiet (ofOption call.field fun f => "." ++ f) :=
    .ofOption .empty fun f hf => hdot.append (.quiet (hfield f hf))
  have hkeepText : Turns Quiet Quiet
      (ofOption (call.keep.map (Keep.map text)) fun k => " " ++ k.text) :=
    .ofOption_map .empty fun k hk =>
      (hblank.append (k.turns_text (hkeep k hk) (h.2 k hk)).ofQuiet).toQuiet
  have hhead := ((hescape.ofQuiet.onlyIf call.escaped).append (.quiet hname)).append
    (call.turns_argumentsText h.1).toQuiet
  exact ((hhead.append hfieldText).append hkeepText).append (hclosing.toQuiet.onlyIf _)

theorem Analytic.turns_argumentsText {a : Analytic ε}
    (h : ∀ e ∈ a.writtenArguments, Quiet (text e)) :
    Turns Settled Quiet (a.map text).argumentsText := by
  have hcomma : Turns Quiet Settled ", " := .word (by decide)
  obtain ⟨name, kind, argument, offset, defaultValue, allColumns, distinct, ignoreNulls, keep,
    partitionBy, orderBy, frame⟩ := a
  cases argument with
  | none =>
    have hstar : Quiet (onlyIf allColumns "*") := by cases allColumns <;> decide
    exact .quiet hstar
  | some argument =>
    cases offset with
    | none => exact (Turns.quiet (h argument (List.mem_singleton.2 rfl))).append .empty
    | some offset =>
      simp only [writtenArguments, List.forall_mem_cons] at h
      obtain ⟨hargument, hoffset, hdefault⟩ := h
      refine (Turns.quiet hargument).append ((hcomma.append (.quiet hoffset)).append ?_)
      exact .ofOption_map .empty fun value hv => hcomma.append (.quiet (hdefault value hv))

theorem Analytic.turns_partitionText {a : Analytic ε} (h : ∀ e ∈ a.partitionBy, Quiet (text e)) :
    Turns Settled Settled (a.map text).partitionText := by
  have hblank : Turns Quiet Settled " " := .word (by decide)
  have hword : Turns Quiet Settled "PARTITION BY " := .word (by decide)
  unfold partitionText
  split
  · exact .empty
  · exact (hword.ofQuiet.append (Arguments.turns_text h)).append hblank

theorem Analytic.turns_orderText {a : Analytic ε} (h : ∀ e ∈ a.writtenOrder, Quiet (text e)) :
    Turns Quiet Quiet (a.map text).orderText := by
  have hblank : Turns Quiet Settled " " := .word (by decide)
  obtain ⟨name, kind, argument, offset, defaultValue, allColumns, distinct, ignoreNulls, keep,
    partitionBy, orderBy, frame⟩ := a
  cases orderBy with
  | nil => exact .empty
  | cons key rest =>
    obtain ⟨horder, hframe⟩ := List.forall_mem_append.1 h
    have hclause := OrderKey.turns_clauseText (.word (by decide : Separates "ORDER BY ")) horder
    exact hclause.append (.ofOption_map .empty fun f hf =>
      hblank.append (f.turns_text (List.forall_mem_flatMap.1 hframe f hf)))

theorem Analytic.turns_text {a : Analytic ε} (hs : ∀ s ∈ (a.map strings).strings, Quiet s.text)
    (h : ∀ e ∈ a.written, Quiet (text e)) : Turns Settled Quiet (a.map text).text := by
  simp only [Analytic.strings, Analytic.map, List.forall_mem_append, List.forall_mem_cons,
    List.forall_mem_flatMap, Option.toList_map, List.forall_mem_map] at hs
  simp only [Analytic.written, List.forall_mem_append, List.forall_mem_flatMap] at h
  obtain ⟨⟨⟨⟨⟨⟨⟨hname, -⟩, -⟩, -⟩, hkeep⟩, -⟩, -⟩, -⟩ := hs
  obtain ⟨⟨⟨harguments, hkeepParts⟩, hpartition⟩, horder⟩ := h
  have hname : Quiet a.name := hname
  have hblank : Turns Quiet Settled " " := .word (by decide)
  have hopen : Turns Quiet Settled "(" := .word (by decide)
  have hclose : Turns Quiet Settled ")" := .word (by decide)
  have hdistinct : Turns Quiet Settled "DISTINCT " := .word (by decide)
  have hnulls : Turns Quiet Settled " IGNORE NULLS" := .word (by decide)
  have hclosing : Turns Quiet Settled ") " := .word (by decide)
  have hkind : Quiet a.kind.token := by cases a.kind <;> decide
  have hwindow : Turns Quiet Settled " (" := .word (by decide)
  have hkeepText : Turns Settled Settled
      (ofOption (a.keep.map (Keep.map text)) fun k => k.text ++ " ") :=
    .ofOption_map .empty fun k hk =>
      ((k.turns_text (hkeep k hk) (hkeepParts k hk)).append hblank.ofQuiet).ofQuiet
  have hcall := (((((Turns.quiet hname).append hopen).append
    (hdistinct.ofQuiet.onlyIf a.distinct)).append (a.turns_argumentsText harguments)).append
    (hnulls.toQuiet.onlyIf a.ignoreNulls)).append hclosing
  exact (((((hcall.append hkeepText).append (.quiet hkind)).append hwindow).append
    (a.turns_partitionText hpartition)).append (a.turns_orderText horder).ofQuiet).append
    hclose.toQuiet

theorem GroupConcat.turns_text {g : GroupConcat ε}
    (hs : ∀ s ∈ (g.map strings).strings, Quiet s.text) (h : ∀ e ∈ g.children, Quiet (text e)) :
    Turns Settled Quiet (g.map text).text := by
  simp only [GroupConcat.strings, GroupConcat.map, List.forall_mem_append,
    List.forall_mem_map] at hs
  obtain ⟨-, hseparator⟩ := hs
  obtain ⟨harguments, horder⟩ := List.forall_mem_append.1 h
  have hclose : Turns Quiet Settled ")" := .word (by decide)
  have hopening : Turns Quiet Settled "GROUP_CONCAT(" := .word (by decide)
  have hdistinct : Turns Quiet Settled "DISTINCT " := .word (by decide)
  have hword : Turns Quiet Settled " SEPARATOR " := .word (by decide)
  have hclause := OrderKey.turns_clauseText (.word (by decide : Separates " ORDER BY ")) horder
  refine ((((hopening.ofQuiet.append (hdistinct.ofQuiet.onlyIf _)).append
    (Arguments.turns_text harguments)).append hclause).append ?_).append hclose.toQuiet
  exact .ofOption .empty fun s hs =>
    (hword.append (Turns.quoted (hseparator s hs)).ofQuiet).toQuiet

/-! ## Queries -/

theorem SelectItem.turns_text {item : SelectItem ε}
    (hs : ∀ s ∈ (item.map strings).strings, Quiet s.text)
    (h : ∀ e ∈ item.children, Quiet (text e)) : Turns Settled Quiet (item.map text).text := by
  cases item with
  | allColumns => exact .quiet (by decide : Quiet "*")
  | tableColumns table =>
    have hstar : Turns Quiet Settled ".*" := .word (by decide)
    exact ((Turns.quiet (Table.quiet_qualifier hs)).append hstar).toQuiet
  | expr e label =>
    have hlabel := List.forall_mem_flatMap.1 (List.forall_mem_append.1 hs).2
    exact (Turns.quiet (h e (List.mem_singleton.2 rfl))).append
      (.ofOption .empty fun l hl => Alias.turns_text (hlabel l hl))

theorem Select.turns_groupText {select : Select ε} (h : ∀ e ∈ select.groupBy, Quiet (text e)) :
    Turns Quiet Quiet (select.map text).groupText := by
  have hword : Turns Quiet Settled " GROUP BY " := .word (by decide)
  unfold groupText
  split
  · exact .empty
  · exact hword.append (Arguments.turns_text h)

theorem Select.turns_text {select : Select ε}
    (hs : ∀ s ∈ (select.map strings).strings, Quiet s.text)
    (h : ∀ e ∈ select.children, Quiet (text e)) : Turns Settled Quiet (select.map text).text := by
  simp only [Select.strings, Select.map, List.forall_mem_append, List.forall_mem_flatMap,
    List.forall_mem_map] at hs
  simp only [Select.children, List.forall_mem_append, List.forall_mem_flatMap] at h
  obtain ⟨⟨⟨⟨⟨⟨hitems, hsource⟩, -⟩, -⟩, -⟩, -⟩, -⟩ := hs
  obtain ⟨⟨⟨⟨⟨hparts, hcondition⟩, hgroup⟩, hhaving⟩, horder⟩, hlimit⟩ := h
  have hselect : Turns Quiet Settled "SELECT " := .word (by decide)
  have hdistinct : Turns Quiet Settled "DISTINCT " := .word (by decide)
  have hfrom : Turns Quiet Settled " FROM " := .word (by decide)
  have hlist : Turns Settled Quiet
      (commaSeparated ((select.items.map (SelectItem.map text)).map SelectItem.text)) := by
    refine .commaSeparated (List.forall_mem_map.2 (List.forall_mem_map.2 fun item hi => ?_))
    exact item.turns_text (hitems item hi) (hparts item hi)
  have hclause : ∀ {word : String} {part : Option ε}, Separates word →
      (∀ e ∈ part.toList, Quiet (text e)) →
      Turns Quiet Quiet (ofOption (part.map text) fun e => word ++ e) :=
    fun hword hpart => .ofOption_map .empty fun e he =>
      (Turns.word hword).append (.quiet (hpart e he))
  have hkeys := OrderKey.turns_clauseText (.word (by decide : Separates " ORDER BY "))
    (List.forall_mem_flatMap.2 horder)
  refine (((((((hselect.ofQuiet.append (hdistinct.ofQuiet.onlyIf _)).append hlist).append
    ?_).append (hclause (by decide) hcondition)).append (select.turns_groupText hgroup)).append
    (hclause (by decide) hhaving)).append hkeys).append (hclause (by decide) hlimit)
  exact .ofOption .empty fun table ht => hfrom.append (Table.turns_text (hsource table ht))

theorem Query.turns_text {query : Query ε} (hs : ∀ s ∈ (query.map strings).strings, Quiet s.text)
    (h : ∀ e ∈ query.children, Quiet (text e)) : Turns Settled Quiet (query.map text).text := by
  induction query with
  | plain select => exact select.turns_text hs h
  | compound op all left right ihl ihr =>
    obtain ⟨hsl, hsr⟩ := List.forall_mem_append.1 hs
    obtain ⟨hl, hr⟩ := List.forall_mem_append.1 h
    have hjoiner : Separates (op.joiner all) := by cases op <;> cases all <;> decide
    exact ((ihl hsl hl).append (.word hjoiner)).append (ihr hsr hr)

theorem CommonTable.turns_text {table : CommonTable ε}
    (hs : ∀ s ∈ (table.map strings).strings, Quiet s.text)
    (h : ∀ e ∈ table.children, Quiet (text e)) : Turns Settled Quiet (table.map text).text := by
  simp only [CommonTable.strings, CommonTable.map, List.forall_mem_append, List.forall_mem_cons,
    List.forall_mem_map] at hs
  obtain ⟨⟨hname, hcolumns⟩, hquery⟩ := hs
  have hname : Quiet table.name := hname
  have hclose : Turns Quiet Settled ")" := .word (by decide)
  have hopening : Turns Quiet Settled " AS (" := .word (by decide)
  exact ((((Turns.quiet hname).append (turns_columnsText hcolumns)).append hopening).append
    (table.query.turns_text hquery h)).append hclose.toQuiet

theorem SubQuery.turns_withText {sub : SubQuery ε}
    (hs : ∀ table ∈ sub.commonTables, ∀ s ∈ (table.map strings).strings, Quiet s.text)
    (h : ∀ table ∈ sub.commonTables, ∀ e ∈ table.children, Quiet (text e)) :
    Turns Settled Settled (sub.map text).withText := by
  have hblank : Turns Quiet Settled " " := .word (by decide)
  have hword : Turns Quiet Settled "WITH " := .word (by decide)
  have htables : Turns Settled Quiet
      (commaSeparated ((sub.commonTables.map (CommonTable.map text)).map CommonTable.text)) := by
    refine .commaSeparated (List.forall_mem_map.2 (List.forall_mem_map.2 fun table ht => ?_))
    exact table.turns_text (hs table ht) (h table ht)
  unfold withText
  split
  · exact .empty
  · exact (hword.ofQuiet.append htables).append hblank

theorem SubQuery.turns_text {sub : SubQuery ε} (hs : ∀ s ∈ (sub.map strings).strings, Quiet s.text)
    (h : ∀ e ∈ sub.children, Quiet (text e)) : Turns Settled Quiet (sub.map text).text := by
  have hopen : Turns Quiet Settled "(" := .word (by decide)
  have hclose : Turns Quiet Settled ")" := .word (by decide)
  simp only [SubQuery.strings, SubQuery.map, List.forall_mem_append, List.forall_mem_flatMap,
    List.forall_mem_map] at hs
  simp only [SubQuery.children, List.forall_mem_append, List.forall_mem_flatMap] at h
  exact (((hopen.ofQuiet.onlyIf sub.brackets).append (sub.turns_withText hs.2 h.1)).append
    (sub.query.turns_text hs.1 h.2)).append (hclose.toQuiet.onlyIf _)

theorem Items.turns_text {items : Items ε} (hs : ∀ s ∈ (items.map strings).strings, Quiet s.text)
    (h : ∀ e ∈ items.children, Quiet (text e)) : Turns Settled Quiet (items.map text).text := by
  cases items with
  | list values => exact (Arguments.turns_bracketed h).ofQuiet.toQuiet
  | rows lists =>
    refine .commaSeparated (List.forall_mem_map.2 (List.forall_mem_map.2 fun list hl => ?_))
    exact (Arguments.turns_bracketed (List.forall_mem_flatten.1 h list hl)).ofQuiet.toQuiet
  | query sub => exact sub.turns_text hs h

theorem Member.turns_text (join : OuterJoin) {member : Member ε}
    (hs : ∀ s ∈ (member.map strings).strings, Quiet s.text)
    (h : ∀ e ∈ member.children, Quiet (text e)) :
    Turns Settled Quiet ((member.map text).text join) := by
  cases member with
  | expr e =>
    exact (Turns.quiet (h e (List.mem_singleton.2 rfl))).append (OuterJoin.turns_mark _)
  | items is => exact is.turns_text hs h

/-! ## Expressions -/

namespace Node

/-- The pieces of a text that follow one another with nothing between them : a sign and its operand,
the column, the operators and the keys of a document path, the name and the type suffix of a
parameter. Any other text is one piece. -/
def abutting : Node String → List String
  | signed sign operand => [sign.token, operand]
  | document c path => c.text :: path.flatMap fun step => [step.op.token, step.key]
  | parameter p => p.abutting
  | n => [n.text]

theorem text_eq_join_abutting (n : Node String) : n.text = String.join n.abutting := by
  cases n with
  | signed sign operand => simp [abutting, text]
  | document c path =>
    have hpath : String.join (path.map PathStep.text) =
        String.join (path.flatMap fun step => [step.op.token, step.key]) := by
      induction path with
      | nil => rfl
      | cons step rest ih => simp [PathStep.text, ih, String.append_assoc]
    simp [abutting, text, hpath]
  | parameter p => exact p.text_eq_join_abutting
  | _ => simp [abutting]

/-- The pieces are quiet if the strings of the node and the texts of what is written are. -/
theorem quiet_of_mem_abutting {n : Node ε} (hhint : ∀ hint, n ≠ .hint hint)
    (hs : ∀ s ∈ (n.map strings).strings, Quiet s.text) (h : ∀ e ∈ n.written, Quiet (text e)) :
    ∀ piece ∈ (n.map text).abutting, Quiet piece := by
  have hblank : Turns Quiet Settled " " := .word (by decide)
  have hclose : Turns Quiet Settled ")" := .word (by decide)
  have hnegation : ∀ negated, Turns Settled Settled (negationText negated) :=
    fun negated => (Turns.word (by decide)).ofQuiet.onlyIf negated
  have htest : ∀ negated, Turns Quiet Quiet (testNegationText negated) :=
    fun negated => (Turns.word (by decide)).toQuiet.onlyIf negated
  -- Nearly every node is one piece.
  have hone : ∀ {t : String}, Turns Settled Quiet t → ∀ piece ∈ [t], Quiet piece :=
    fun ht => List.forall_mem_singleton.2 ht.quiet_text
  cases n with
  | binary left op right negated =>
    simp only [written, children, List.forall_mem_cons] at h
    obtain ⟨hleft, hright, -⟩ := h
    exact hone ((((((hnegation negated).append (.quiet hleft)).append hblank).append
      (.quiet op.quiet_token)).append hblank).append (.quiet hright))
  | comparison left op right negated join =>
    simp only [written, children, List.forall_mem_cons] at h
    obtain ⟨hleft, hright, -⟩ := h
    exact hone ((((((((hnegation negated).append (.quiet hleft)).append
      (OuterJoin.turns_mark _)).append hblank).append (.quiet op.quiet_token)).append
      hblank).append (.quiet hright)).append (OuterJoin.turns_mark _))
  | like left right negated ignoreCase escape =>
    simp only [written, children, List.forall_mem_cons] at h
    obtain ⟨hleft, hright, -⟩ := h
    have hescape := List.forall_mem_map.1 (List.forall_mem_append.1 hs).2
    have hword : Quiet (likeWord ignoreCase) := by cases ignoreCase <;> decide
    have hescapeWord : Turns Quiet Settled " ESCAPE " := .word (by decide)
    refine hone (((((((hnegation negated).append (.quiet hleft)).append hblank).append
      (.quiet hword)).append hblank).append (.quiet hright)).append ?_)
    exact .ofOption .empty fun e he =>
      (hescapeWord.append (Turns.quoted (hescape e he)).ofQuiet).toQuiet
  | between e start stop negated =>
    simp only [written, children, List.forall_mem_cons] at h
    obtain ⟨he, hstart, hstop, -⟩ := h
    have hbetween : Turns Quiet Settled " BETWEEN " := .word (by decide)
    have hand : Turns Quiet Settled " AND " := .word (by decide)
    exact hone ((((((Turns.quiet he).append (htest negated)).append hbetween).append
      (.quiet hstart)).append hand).append (.quiet hstop))
  | membership member items negated join =>
    obtain ⟨hsm, hsi⟩ := List.forall_mem_append.1 hs
    obtain ⟨hm, hi⟩ := List.forall_mem_append.1 h
    have hin : Turns Quiet Settled " IN " := .word (by decide)
    exact hone ((((member.turns_text join hsm hm).append (htest negated)).append hin).append
      (items.turns_text hsi hi))
  | isNull e negated oneWord =>
    have hnull : Separates (nullTest negated oneWord) := by
      cases negated <;> cases oneWord <;> decide
    exact hone ((Turns.quiet (h e (List.mem_singleton.2 rfl))).append (.word hnull)).toQuiet
  | existence e negated =>
    have hexists : Separates (existenceTest negated) := by cases negated <;> decide
    exact hone ((Turns.word hexists).ofQuiet.append (.quiet (h e (List.mem_singleton.2 rfl))))
  | not e =>
    have hnot : Turns Quiet Settled "NOT " := .word (by decide)
    exact hone (hnot.ofQuiet.append (.quiet (h e (List.mem_singleton.2 rfl))))
  | signed sign e =>
    have hsign : Quiet sign.token := by cases sign <;> decide
    have he : Quiet (text e) := h e (List.mem_singleton.2 rfl)
    exact List.forall_mem_cons.2 ⟨hsign, List.forall_mem_singleton.2 he⟩
  | brackets e negated =>
    have he := Turns.quiet (h e (List.mem_singleton.2 rfl))
    exact hone ((hnegation negated).append he.bracketed.ofQuiet).toQuiet
  | case c => exact hone (c.turns_text h)
  | call c => exact hone (c.turns_text hs h)
  | analytic a => exact hone (a.turns_text hs h)
  | groupConcat g => exact hone (g.turns_text hs h)
  | cast e type keyword =>
    have he := Turns.quiet (h e (List.mem_singleton.2 rfl))
    have htype := Turns.quiet (DataType.quiet_sql (List.forall_mem_append.1 hs).2)
    have hopening : Turns Quiet Settled "CAST(" := .word (by decide)
    have has : Turns Quiet Settled " AS " := .word (by decide)
    have hcolons : Turns Quiet Settled "::" := .word (by decide)
    cases keyword with
    | true =>
      exact hone ((((hopening.ofQuiet.append he).append has).append htype).append
        hclose).toQuiet
    | false => exact hone ((he.append hcolons).append htype)
  | extract field e =>
    have hfield : Quiet field := (List.forall_mem_cons.1 hs).1
    have hopening : Turns Quiet Settled "EXTRACT(" := .word (by decide)
    have hfrom : Turns Quiet Settled " FROM " := .word (by decide)
    exact hone ((((hopening.ofQuiet.append (.quiet hfield)).append hfrom).append
      (.quiet (h e (List.mem_singleton.2 rfl)))).append hclose).toQuiet
  | interval amount unit =>
    obtain ⟨hamount, hunit⟩ := List.forall_mem_cons.1 hs
    have hamount : Quiet amount := hamount
    have hword : Turns Quiet Settled "INTERVAL " := .word (by decide)
    refine hone ((hword.ofQuiet.append (.quiet hamount)).append ?_)
    exact .ofOption .empty fun u hu =>
      hblank.append (.quiet (List.forall_mem_map.1 hunit u hu))
  | row name elements =>
    have hname := List.forall_mem_map.1 (List.forall_mem_append.1 hs).1
    have hnameText : Turns Settled Quiet (ofOption name id) :=
      .ofOption Turns.empty.toQuiet fun word hw => .quiet (hname word hw)
    exact hone (hnameText.append (Arguments.turns_bracketed h)).toQuiet
  | values elements => exact hone (Arguments.turns_bracketed h).ofQuiet.toQuiet
  | column c => exact hone (.quiet (Column.quiet_text hs))
  | document c path =>
    obtain ⟨hcolumn, hpath⟩ := List.forall_mem_append.1 hs
    refine List.forall_mem_cons.2 ⟨Column.quiet_text hcolumn, List.forall_mem_flatMap.2 ?_⟩
    intro step hstep
    have hkey : Quiet step.key :=
      List.forall_mem_flatMap.1 hpath step hstep (.plain step.key) (List.mem_singleton.2 rfl)
    exact List.forall_mem_cons.2 ⟨step.op.quiet_token, List.forall_mem_singleton.2 hkey⟩
  | literal l => exact hone (.quiet (Literal.quiet_text hs))
  | parameter p => exact Parameter.quiet_of_mem_abutting hs
  | sessionVariable name system =>
    have hsign : Separates (variableSign system) := by cases system <;> decide
    have hname : Quiet name := hs (.plain name) (List.mem_singleton.2 rfl)
    exact hone ((Turns.word hsign).ofQuiet.append (.quiet hname))
  | timeKey word => exact hone (.quiet (hs (.plain word) (List.mem_singleton.2 rfl)))
  | subQuery query => exact hone (query.turns_text hs h)
  | allOf query =>
    have hall : Turns Quiet Settled "ALL " := .word (by decide)
    exact hone (hall.ofQuiet.append (query.turns_text hs h))
  | anyOf word query =>
    have hword : Quiet word.token := by cases word <;> decide
    exact hone (((Turns.quiet hword).append hblank).append (query.turns_text hs h))
  | hierarchical start connect noCycle =>
    obtain ⟨hstart, hconnect⟩ := List.forall_mem_append.1 h
    have hstartWord : Turns Quiet Settled " START WITH " := .word (by decide)
    have hconnectWord : Turns Quiet Settled " CONNECT BY " := .word (by decide)
    have hnoCycle : Turns Quiet Settled "NOCYCLE " := .word (by decide)
    have hstartText : Turns Quiet Quiet (ofOption (start.map text) fun e => " START WITH " ++ e) :=
      .ofOption_map .empty fun e he => hstartWord.append (.quiet (hstart e he))
    have hconnect : Quiet (text connect) := hconnect connect (List.mem_singleton.2 rfl)
    exact hone (((hstartText.ofQuiet.append hconnectWord).append
      (hnoCycle.ofQuiet.onlyIf noCycle)).append (.quiet hconnect))
  | hint x => exact (hhint x rfl).elim

/-- Two pieces of a node that stand side by side open a comment where they meet. -/
inductive Clashes (text : ε → String) : Node ε → Prop
  | signed {operand : ε} (h : (text operand).toList.head? = some '-') :
    Clashes text (.signed .minus operand)
  | document {c : Column} {path : List PathStep}
    (h : Meet (c.text :: path.flatMap fun step => [step.op.token, step.key])) :
    Clashes text (.document c path)
  | parameter {name typeSuffix : String} (h : Adjoin name typeSuffix) :
    Clashes text (.parameter (.named name (some typeSuffix)))

theorem meet_abutting_iff (n : Node ε) : Meet (n.map text).abutting ↔ n.Clashes text := by
  constructor
  · intro h
    cases n with
    | signed sign e =>
      obtain ⟨rfl, hhead⟩ := (sign.adjoin_token _).1 ((meet_pair _ _).1 h)
      exact .signed hhead
    | document c path => exact .document h
    | parameter p =>
      cases p with
      | named name typeSuffix =>
        cases typeSuffix with
        | none => exact (not_meet_singleton _ h).elim
        | some typeSuffix => exact .parameter ((Parameter.adjoin_colon _ _).1 ((meet_pair _ _).1 h))
      | _ => exact (not_meet_singleton _ h).elim
    | _ => exact (not_meet_singleton _ h).elim
  · rintro (h | h | h)
    · exact (meet_pair _ _).2 ((Sign.adjoin_token _ _).2 ⟨rfl, h⟩)
    · exact h
    · exact (meet_pair _ _).2 ((Parameter.adjoin_colon _ _).2 h)

/-- A node opens a comment where what is written does, or where two of its pieces clash. -/
theorem opensComment_text_iff {n : Node ε} (hhint : ∀ hint, n ≠ .hint hint)
    (hs : ∀ s ∈ (n.map strings).strings, Quiet s.text) :
    OpensComment (n.map text).text ↔
      (∃ e ∈ n.written, OpensComment (text e)) ∨ n.Clashes text := by
  rw [← meet_abutting_iff]
  constructor
  · intro ho
    by_contra hno
    obtain ⟨hparts, hmeet⟩ := not_or.1 hno
    rw [text_eq_join_abutting, opensComment_join] at ho
    obtain ⟨piece, hp, ho⟩ | ho := ho
    · exact quiet_of_mem_abutting hhint hs (fun e he hopen => hparts ⟨e, he, hopen⟩) piece hp ho
    · exact hmeet ho
  · rintro (⟨e, he, ho⟩ | hmeet)
    · -- What is written stands in the text as it is.
      obtain ⟨before, after, hsplit⟩ := List.append_of_mem he
      obtain ⟨left, right, -, -, htext⟩ := (hsplit ▸ n.composed).split
      rw [htext text]
      exact ho.between _ _
    · rw [text_eq_join_abutting, opensComment_join]
      exact .inr hmeet

end Node

end Clauses

/-- If a tree holds no hint and none of its strings opens a comment, its text opens one just if two
pieces clash in one of the nodes that are written. -/
theorem Expr.opensComment_sql_iff (e : Expr) (hhint : e.Everywhere fun n => ∀ hint, n ≠ .hint hint)
    (hs : ∀ s ∈ e.strings, ¬ OpensComment s.text) :
    OpensComment e.sql ↔ ∃ n ∈ e.writtenNodes, n.Clashes Expr.sql := by
  induction e using Expr.induction with
  | step n ih =>
    -- The hypotheses pass to all sub-expressions, and those that are written need the conclusion.
    obtain ⟨hnode, hparts⟩ := (everywhere_node _ n).1 hhint
    rw [strings_node] at hs
    have hwritten : ∀ part ∈ n.written, (OpensComment part.sql ↔
        ∃ m ∈ part.writtenNodes, m.Clashes Expr.sql) := fun part hp =>
      have hp := n.written_subset hp
      ih part hp (hparts part hp) (Node.forall_strings_children hs part hp)
    rw [sql_node, Node.opensComment_text_iff hnode hs, writtenNodes_node, or_comm]
    simp only [List.mem_cons, List.mem_flatMap, exists_eq_or_imp]
    refine or_congr_right ⟨?_, ?_⟩
    · rintro ⟨part, hp, ho⟩
      obtain ⟨m, hm, hclash⟩ := (hwritten part hp).1 ho
      exact ⟨m, ⟨part, hp, hm⟩, hclash⟩
    · rintro ⟨m, ⟨part, hp, hm⟩, hclash⟩
      exact ⟨part, hp, (hwritten part hp).2 ⟨m, hm, hclash⟩⟩

/-- The name and the suffix of a parameter meet in a slash and a star. -/
theorem Expr.opensComment_sql_parameter :
    let negative := Expr.node (.signed .minus (.node (.column ⟨none, "a"⟩)))
    let left := Expr.node (.signed .minus (.node (.brackets negative false)))
    let right : Node Expr := .parameter (.named "b/" (some "*c"))
    let e := Expr.node (.binary left .add (.node right) false)
    (e.Everywhere fun n => ∀ hint, n ≠ .hint hint) ∧ (∀ s ∈ e.strings, ¬ OpensComment s.text) ∧
      e.sql = "-(-a) + :b/*c" ∧ right ∈ e.writtenNodes ∧ right.Clashes Expr.sql ∧
      OpensComment e.sql := by
  intro negative left right e
  have hhint : e.Everywhere fun n => ∀ hint, n ≠ .hint hint := by
    simp [e, left, right, negative, everywhere_node, Node.children]
  have hs : ∀ s ∈ e.strings, ¬ OpensComment s.text := by decide +kernel
  have hright : right ∈ e.writtenNodes := by
    simp [e, right, writtenNodes_node, Node.written, Node.children]
  have hclash : right.Clashes Expr.sql := .parameter ⟨'/', by decide, '*', by decide, by decide⟩
  exact ⟨hhint, hs, by decide +kernel, hright, hclash,
    (e.opensComment_sql_iff hhint hs).2 ⟨right, hright, hclash⟩⟩

/-- The sign of a sign : no string of the tree opens a comment, but the text does. -/
theorem Expr.opensComment_sql_minus_minus :
    let negative := Expr.node (.signed .minus (.node (.column ⟨none, "a"⟩)))
    let e := Expr.node (.signed .minus negative)
    (e.Everywhere fun n => ∀ hint, n ≠ .hint hint) ∧ (∀ s ∈ e.strings, ¬ OpensComment s.text) ∧
      e.sql = "--a" ∧ OpensComment e.sql := by
  intro negative e
  have hhint : e.Everywhere fun n => ∀ hint, n ≠ .hint hint := by
    simp [e, negative, everywhere_node, Node.children]
  exact ⟨hhint, by decide +kernel, by decide +kernel, by decide +kernel⟩

end SqlText
