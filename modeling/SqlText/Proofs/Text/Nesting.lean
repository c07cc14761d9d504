import SqlText.Expr.Lemmas
import SqlText.Expr.Text
import SqlText.Proofs.Temporal.Spelling
import SqlText.Proofs.Text.Scanning
import SqlText.Proofs.Text.Strings

/-!
# Quotes are closed and brackets nested

The text of a tree is neutral if none of the tree's strings can upset it : a string that is written
as it is must itself be neutral, and in a string that is written between quotes the quotes must be
doubled. Brackets inside quotations do not matter.

Each clause opens and closes its own brackets, whatever its flags say (`neutral_text`, one lemma for
each clause). For whole trees the strings and the text are built side by side, together with the
proof that safe strings make a neutral text (`SafeText`).
-/

namespace SqlText

open Text

/-- A string that does not upset the quotes and brackets around it. -/
def TreeString.Safe : TreeString → Prop
  | plain text => Neutral text
  | quoted text => quotesDoubled text.toList

instance : DecidablePred TreeString.Safe
  | .plain text => inferInstanceAs (Decidable (Neutral text))
  | .quoted text => inferInstanceAs (Decidable (quotesDoubled text.toList = true))

/-- None of the strings upsets the quotes and brackets around it. -/
def AllSafe (strings : List TreeString) : Prop :=
  ∀ s ∈ strings, s.Safe

instance (strings : List TreeString) : Decidable (AllSafe strings) :=
  inferInstanceAs (Decidable (∀ s ∈ strings, s.Safe))

section AllSafe

variable {α : Type} {s : TreeString} {first second strings : List TreeString}

@[simp] theorem allSafe_nil : AllSafe [] := List.forall_mem_nil _

@[simp] theorem allSafe_cons : AllSafe (s :: strings) ↔ s.Safe ∧ AllSafe strings :=
  List.forall_mem_cons

@[simp] theorem allSafe_append : AllSafe (first ++ second) ↔ AllSafe first ∧ AllSafe second :=
  List.forall_mem_append

@[simp] theorem allSafe_flatten {lists : List (List TreeString)} :
    AllSafe lists.flatten ↔ ∀ list ∈ lists, AllSafe list :=
  List.forall_mem_flatten

@[simp] theorem allSafe_flatMap {parts : List α} {f : α → List TreeString} :
    AllSafe (parts.flatMap f) ↔ ∀ part ∈ parts, AllSafe (f part) :=
  List.forall_mem_flatMap

@[simp] theorem allSafe_map_plain {texts : List String} :
    AllSafe (texts.map .plain) ↔ ∀ text ∈ texts, Neutral text :=
  List.forall_mem_map

@[simp] theorem allSafe_map_quoted {texts : List String} :
    AllSafe (texts.map .quoted) ↔ ∀ text ∈ texts, quotesDoubled text.toList :=
  List.forall_mem_map

end AllSafe

/-! ## Operators -/

theorem DocumentOp.neutral_token (op : DocumentOp) : Neutral op.token := by
  cases op <;> decide

theorem BinaryOp.neutral_token (op : BinaryOp) : Neutral op.token := by
  cases op with
  | pattern op => cases op <;> decide
  | regexp op => cases op <;> decide
  | document op => exact op.neutral_token
  | _ => decide

theorem ComparisonOp.neutral_token (op : ComparisonOp) : Neutral op.token := by
  cases op with
  | notEquals sign => cases sign <;> decide
  | _ => decide

/-! ## Leaves of the tree -/

theorem Alias.neutral_text {label : Alias} (h : AllSafe label.strings) : Neutral label.text := by
  have hjoiner : Neutral label.joiner := by
    unfold joiner
    split <;> decide
  have hname : Neutral label.name := (allSafe_cons.1 h).1
  exact hjoiner.append hname

namespace Table

theorem neutral_fullName {table : Table} (h : AllSafe table.strings) : Neutral table.fullName := by
  simp only [strings, allSafe_append, allSafe_cons, allSafe_map_plain] at h
  obtain ⟨hschema, hname, -⟩ := h
  have hdot : Neutral "." := by decide
  unfold fullName
  split
  · exact hname
  · next schema hs =>
    have hschema : Neutral schema := hschema schema (by simp [hs])
    split_ifs
    · exact hschema
    · exact hname
    · exact (hschema.append hdot).append hname

theorem neutral_qualifier {table : Table} (h : AllSafe table.strings) :
    Neutral table.qualifier := by
  unfold qualifier
  split
  · next label hl =>
    simp only [strings, allSafe_append, allSafe_cons, allSafe_flatMap] at h
    have hlabel := h.2.2 label (by simp [hl])
    exact (allSafe_cons.1 hlabel).1
  · exact neutral_fullName h

theorem neutral_text {table : Table} (h : AllSafe table.strings) : Neutral table.text := by
  have hname := neutral_fullName h
  simp only [strings, allSafe_append, allSafe_cons, allSafe_flatMap] at h
  obtain ⟨-, -, hlabel⟩ := h
  exact hname.append (neutral_ofOption fun label hl => Alias.neutral_text (hlabel label hl))

end Table

theorem Column.neutral_text {column : Column} (h : AllSafe column.strings) :
    Neutral column.text := by
  simp only [strings, allSafe_append, allSafe_flatMap, allSafe_cons] at h
  obtain ⟨htable, hname, -⟩ := h
  have hdot : Neutral "." := by decide
  unfold text
  split
  · exact hname
  · next table ht =>
    have hqualifier := Table.neutral_qualifier (htable table (by simp [ht]))
    split_ifs
    · exact hname
    · exact (hqualifier.append hdot).append hname

theorem PathStep.neutral_text {step : PathStep} (h : AllSafe step.strings) :
    Neutral step.text := by
  have hkey : Neutral step.key := (allSafe_cons.1 h).1
  exact step.op.neutral_token.append hkey

theorem Hint.neutral_text {hint : Hint} (h : AllSafe hint.strings) : Neutral hint.text := by
  have hopening : Neutral hint.opening := by
    unfold opening
    split <;> decide
  have hclosing : Neutral hint.closing := by
    unfold closing
    split <;> decide
  have hvalue : Neutral hint.value := (allSafe_cons.1 h).1
  exact (hopening.append hvalue).append hclosing

theorem QuotedText.neutral_text {q : QuotedText} (h : AllSafe q.strings) : Neutral q.text := by
  simp only [strings, allSafe_append, allSafe_map_plain, allSafe_cons] at h
  obtain ⟨hmarker, hvalue, -⟩ := h
  exact (neutral_ofOption hmarker).append (neutral_quoted hvalue)

/-! ### Temporal values -/

theorem Digits.Spell.isInert {width n : Nat} {digits : List Char}
    (h : Digits.Spell width digits n) : ∀ c ∈ digits, isInert c :=
  fun c hc => isInert_of_isDigit (h.isDigit c hc)

theorem Date.isInert_chars (d : Date) : ∀ c ∈ d.chars, isInert c := by
  intro c hc
  rcases d.spelling_chars.isDigit_or c hc with h | rfl | rfl
  · exact isInert_of_isDigit h
  · decide
  · decide

theorem Time.FractionSpelling.isInert {n : Nat} {chars : List Char} (h : FractionSpelling n chars) :
    ∀ c ∈ chars, isInert c := by
  cases h with
  | whole => exact List.forall_mem_nil _
  | digits _ h => exact List.forall_mem_cons.2 ⟨by decide, h.isInert⟩

theorem Time.FullSpelling.isInert {t : Time} {chars : List Char} (h : t.FullSpelling chars) :
    ∀ c ∈ chars, isInert c := by
  obtain ⟨hhour, hminute, hsecond, hfraction⟩ := h
  simp only [List.forall_mem_append, List.forall_mem_cons]
  exact ⟨⟨⟨hhour.isInert, by decide, hminute.isInert⟩, by decide, hsecond.isInert⟩,
    hfraction.isInert⟩

theorem Timestamp.isInert_text (t : Timestamp) : ∀ c ∈ t.text.toList, isInert c := by
  rw [text, joined, String.toList_ofList, List.forall_mem_append, List.forall_mem_cons]
  exact ⟨t.date.isInert_chars, by decide, t.time.spelling_chars.isInert⟩

namespace Literal

/-- A value without quotes and brackets in the escape form with braces. -/
theorem neutral_escapeForm {keyword value : String} (hkeyword : Neutral keyword)
    (hvalue : ∀ c ∈ value.toList, isInert c) : Neutral (escapeForm keyword value) := by
  have hquoted : escapeForm keyword value = "\x7b" ++ keyword ++ " " ++ quoted value ++ "\x7d" := by
    have hblank : " '" = " " ++ "'" := by decide
    have hclosing : "'\x7d" = "'" ++ "\x7d" := by decide
    simp only [escapeForm, quoted, hblank, hclosing, String.append_assoc]
  have hopening : Leads [] ['\x7b'] "\x7b" := by decide
  have hclosing : Leads ['\x7b'] [] "\x7d" := by decide
  have hblank : Neutral " " := by decide
  have hvalue := neutral_quoted (quotesDoubled_of_isInert hvalue)
  rw [hquoted]
  exact (((hopening.past hkeyword).past hblank).past hvalue).append hclosing

theorem neutral_text {l : Literal} (h : AllSafe l.strings) : Neutral l.text := by
  cases l with
  | long spelling => exact (allSafe_cons.1 h).1
  | double spelling => exact (allSafe_cons.1 h).1
  | hex spelling => exact (allSafe_cons.1 h).1
  | string value => exact QuotedText.neutral_text h
  | date value =>
    refine neutral_escapeForm (by decide) ?_
    rw [Date.text, String.toList_ofList]
    exact value.isInert_chars
  | time value =>
    refine neutral_escapeForm (by decide) ?_
    rw [Time.text, String.toList_ofList]
    exact value.spelling_chars.isInert
  | timestamp value => exact neutral_escapeForm (by decide) value.isInert_text
  | dateTime word value =>
    have hword : Neutral word.token := by cases word <;> decide
    have hblank : Neutral " " := by decide
    exact (hword.append hblank).append (neutral_quoted (allSafe_cons.1 h).1)
  | null => exact (by decide : Neutral "NULL")

end Literal

theorem Parameter.neutral_text {p : Parameter} (h : AllSafe p.strings) : Neutral p.text := by
  have hcolon : Neutral ":" := by decide
  have hmark : Neutral "?" := by decide
  cases p with
  | positional index => exact hmark.append (neutral_ofOption fun n _ => neutral_toString n.toNat)
  | named name typeSuffix =>
    obtain ⟨hname, hsuffix⟩ := allSafe_cons.1 h
    exact (hcolon.append hname).append (neutral_ofOption (allSafe_map_plain.1 hsuffix))
  | numeric index => exact hcolon.append (neutral_toString index.toNat)
  | markup typeSuffix => exact hmark.append (neutral_ofOption (allSafe_map_plain.1 h))

namespace DataType

theorem neutral_withPrecision {name : String} (hname : Neutral name)
    (precision scale : Option UInt16) : Neutral (withPrecision name precision scale) := by
  have hcomma : Neutral ", " := by decide
  unfold withPrecision
  split
  · next p s =>
    exact (((hname.opening.past (neutral_toString p.toNat)).past hcomma).past
      (neutral_toString s.toNat)).append leads_closing
  · next p =>
    exact (hname.opening.past (neutral_toString p.toNat)).append leads_closing
  · exact hname

theorem neutral_withLength {name : String} (hname : Neutral name) (length : Option UInt32) :
    Neutral (withLength name length) := by
  unfold withLength
  split
  · next n =>
    exact (hname.opening.past (neutral_toString n.toNat)).append leads_closing
  · exact hname

theorem neutral_sql {type : DataType} (h : AllSafe type.strings) : Neutral type.sql := by
  induction type with
  | decimal precision scale => exact neutral_withPrecision (by decide) precision scale
  | numeric precision scale => exact neutral_withPrecision (by decide) precision scale
  | char length => exact neutral_withLength (by decide) length
  | varchar length => exact neutral_withLength (by decide) length
  | varbinary length => exact neutral_withLength (by decide) length
  | array element ih =>
    have hmark : Neutral "[]" := by decide
    exact (ih h).append hmark
  | custom name => exact (allSafe_cons.1 h).1
  | _ => decide

end DataType

theorem OuterJoin.neutral_mark (marked : Bool) : Neutral (onlyIf marked OuterJoin.mark) :=
  Neutral.onlyIf marked (by decide)

theorem CommonTable.neutral_columnsText {columns : List String}
    (hs : ∀ column ∈ columns, Neutral column) : Neutral (columnsText columns) := by
  have hopening : Leads [] ['('] " (" := by decide
  unfold columnsText
  split
  · exact neutral_empty
  · exact (hopening.past (neutral_commaSeparated hs)).append leads_closing

/-! ## Clauses -/

section Clauses

variable {ε : Type} {strings : ε → List TreeString} {text : ε → String}
  (h : ∀ e, AllSafe (strings e) → Neutral (text e))

include h

/-- Expressions with commas between them, in brackets or not. -/
theorem Arguments.neutral_text (brackets : Bool) {arguments : List ε}
    (hs : ∀ e ∈ arguments, AllSafe (strings e)) :
    Neutral (Arguments.text brackets (arguments.map text)) := by
  have hlist : Neutral (commaSeparated (arguments.map text)) :=
    neutral_commaSeparated (List.forall_mem_map.2 fun e he => h e (hs e he))
  cases brackets with
  | true => exact hlist.bracketed
  | false => exact hlist

theorem OrderKey.neutral_text {key : OrderKey ε} (hs : AllSafe (key.map strings).strings) :
    Neutral (key.map text).text := by
  have hdirection : ∀ d : Direction, Neutral (suffix d.token) := by
    intro d
    cases d <;> decide
  have hnulls : ∀ n : NullPlacement, Neutral (suffix n.token) := by
    intro n
    cases n <;> decide
  exact ((h key.expr hs).append (neutral_ofOption fun d _ => hdirection d)).append
    (neutral_ofOption fun n _ => hnulls n)

theorem OrderKey.neutral_clauseText {intro : String} (hintro : Neutral intro)
    {keys : List (OrderKey ε)} (hs : ∀ key ∈ keys, AllSafe (key.map strings).strings) :
    Neutral (clauseText intro (keys.map (OrderKey.map text))) := by
  have hkeys : Neutral (commaSeparated ((keys.map (OrderKey.map text)).map OrderKey.text)) := by
    refine neutral_commaSeparated (List.forall_mem_map.2 (List.forall_mem_map.2 fun key hk => ?_))
    exact key.neutral_text h (hs key hk)
  unfold clauseText
  split
  · exact neutral_empty
  · exact hintro.append hkeys

theorem Keep.neutral_text {keep : Keep ε} (hs : AllSafe (keep.map strings).strings) :
    Neutral (keep.map text).text := by
  simp only [Keep.strings, Keep.map, allSafe_cons, allSafe_flatMap, List.forall_mem_map] at hs
  obtain ⟨hname, horder⟩ := hs
  have hopening : Leads [] ['('] "KEEP (" := by decide
  have hrank : Neutral (keep.map text).rank := by
    unfold rank
    split <;> decide
  have hclause := OrderKey.neutral_clauseText h (by decide : Neutral " ORDER BY ") horder
  exact (((hopening.past hname).past hrank).past hclause).append leads_closing

theorem FrameBound.neutral_text {bound : FrameBound ε}
    (hs : AllSafe (bound.map strings).strings) : Neutral (bound.map text).text := by
  have hpreceding : Neutral " PRECEDING" := by decide
  have hfollowing : Neutral " FOLLOWING" := by decide
  cases bound with
  | preceding offset => exact (h offset hs).append hpreceding
  | following offset => exact (h offset hs).append hfollowing
  | unboundedPreceding => exact (by decide : Neutral "UNBOUNDED PRECEDING")
  | unboundedFollowing => exact (by decide : Neutral "UNBOUNDED FOLLOWING")
  | currentRow => exact (by decide : Neutral "CURRENT ROW")

theorem FrameExtent.neutral_text {extent : FrameExtent ε}
    (hs : AllSafe (extent.map strings).strings) : Neutral (extent.map text).text := by
  cases extent with
  | single bound => exact bound.neutral_text h hs
  | between start stop =>
    obtain ⟨hstart, hstop⟩ := allSafe_append.1 hs
    have hbetween : Neutral "BETWEEN " := by decide
    have hand : Neutral " AND " := by decide
    exact ((hbetween.append (start.neutral_text h hstart)).append hand).append
      (stop.neutral_text h hstop)

theorem Frame.neutral_text {frame : Frame ε} (hs : AllSafe (frame.map strings).strings) :
    Neutral (frame.map text).text := by
  have hunit : Neutral frame.unit.token := by cases frame.unit <;> decide
  have hblank : Neutral " " := by decide
  exact (hunit.append hblank).append (frame.extent.neutral_text h hs)

theorem When.neutral_text {branch : When ε} (hs : AllSafe (branch.map strings).strings) :
    Neutral (branch.map text).text := by
  obtain ⟨hcondition, hresult⟩ := allSafe_append.1 hs
  have hwhen : Neutral "WHEN " := by decide
  have hthen : Neutral " THEN " := by decide
  have hblank : Neutral " " := by decide
  exact (((hwhen.append (h _ hcondition)).append hthen).append (h _ hresult)).append hblank

theorem Case.neutral_text {c : Case ε} (hs : AllSafe (c.map strings).strings) :
    Neutral (c.map text).text := by
  simp only [Case.strings, Case.map, allSafe_append, allSafe_flatten, allSafe_flatMap,
    Option.toList_map, List.forall_mem_map] at hs
  obtain ⟨⟨hoperand, hbranches⟩, hotherwise⟩ := hs
  have hcase : Neutral "CASE " := by decide
  have helse : Neutral "ELSE " := by decide
  have hblank : Neutral " " := by decide
  have hend : Neutral "END" := by decide
  have hjoin : Neutral (String.join ((c.branches.map (When.map text)).map When.text)) := by
    refine neutral_join (List.forall_mem_map.2 (List.forall_mem_map.2 fun branch hb => ?_))
    exact branch.neutral_text h (hbranches branch hb)
  refine (((hcase.append ?_).append hjoin).append ?_).append hend
  · exact neutral_ofOption_map fun e he => (h e (hoperand e he)).append hblank
  · exact neutral_ofOption_map fun e he => (helse.append (h e (hotherwise e he))).append hblank

theorem Call.neutral_argumentsText {call : Call ε}
    (hs : ∀ arguments ∈ call.arguments.toList, ∀ e ∈ arguments, AllSafe (strings e)) :
    Neutral (call.map text).argumentsText := by
  obtain ⟨name, arguments, quantifier, allColumns, escaped, field, keep⟩ := call
  cases arguments with
  | none =>
    have hempty : Neutral (if allColumns then "(*)" else "()") := by cases allColumns <;> decide
    exact hempty
  | some arguments =>
    have harguments := hs arguments (List.mem_singleton.2 rfl)
    cases quantifier with
    | none => exact Arguments.neutral_text h true harguments
    | some quantifier =>
      have hquantifier : Neutral quantifier.token := by cases quantifier <;> decide
      have hblank : Neutral " " := by decide
      exact (((leads_opening.past hquantifier).past hblank).past
        (Arguments.neutral_text h false harguments)).append leads_closing

theorem Call.neutral_text {call : Call ε} (hs : AllSafe (call.map strings).strings) :
    Neutral (call.map text).text := by
  simp only [Call.strings, Call.map, allSafe_append, allSafe_cons, allSafe_flatten, allSafe_flatMap,
    allSafe_map_plain, Option.toList_map, List.forall_mem_map] at hs
  obtain ⟨⟨⟨hname, harguments⟩, hfield⟩, hkeep⟩ := hs
  have hdot : Neutral "." := by decide
  have hblank : Neutral " " := by decide
  -- The brace is on the stack just if the call is escaped.
  have hopening : Leads [] (if call.escaped then ['\x7b'] else [])
      (onlyIf call.escaped "\x7bfn ") := by
    cases call.escaped <;> decide
  have hclosing : Leads (if call.escaped then ['\x7b'] else []) []
      (onlyIf call.escaped "\x7d") := by
    cases call.escaped <;> decide
  refine ((((hopening.past hname).past (call.neutral_argumentsText h harguments)).past ?_).past
    ?_).append hclosing
  · exact neutral_ofOption fun f hf => hdot.append (hfield f hf)
  · exact neutral_ofOption_map fun k hk => hblank.append (k.neutral_text h (hkeep k hk))

theorem Analytic.neutral_argumentsText {a : Analytic ε}
    (hargument : ∀ e ∈ a.argument.toList, AllSafe (strings e))
    (hoffset : ∀ e ∈ a.offset.toList, AllSafe (strings e))
    (hdefault : ∀ e ∈ a.defaultValue.toList, AllSafe (strings e)) :
    Neutral (a.map text).argumentsText := by
  have hcomma : Neutral ", " := by decide
  have hstar : Neutral "*" := by decide
  have hvalue : Neutral (ofOption (a.defaultValue.map text) fun value => ", " ++ value) :=
    neutral_ofOption_map fun e he => hcomma.append (h e (hdefault e he))
  have hrest : Neutral (ofOption (a.offset.map text) fun offset =>
      ", " ++ offset ++ ofOption (a.defaultValue.map text) fun value => ", " ++ value) :=
    neutral_ofOption_map fun e he => (hcomma.append (h e (hoffset e he))).append hvalue
  obtain ⟨name, kind, argument, offset, defaultValue, allColumns, distinct, ignoreNulls, keep,
    partitionBy, orderBy, frame⟩ := a
  cases argument with
  | none => exact hstar.onlyIf allColumns
  | some e => exact (h e (hargument e (List.mem_singleton.2 rfl))).append hrest

theorem Analytic.neutral_partitionText {a : Analytic ε}
    (hs : ∀ e ∈ a.partitionBy, AllSafe (strings e)) : Neutral (a.map text).partitionText := by
  have hword : Neutral "PARTITION BY " := by decide
  have hblank : Neutral " " := by decide
  unfold partitionText
  split
  · exact neutral_empty
  · exact (hword.append (Arguments.neutral_text h false hs)).append hblank

theorem Analytic.neutral_orderText {a : Analytic ε}
    (horder : ∀ key ∈ a.orderBy, AllSafe (key.map strings).strings)
    (hframe : ∀ frame ∈ a.frame.toList, AllSafe (frame.map strings).strings) :
    Neutral (a.map text).orderText := by
  have hblank : Neutral " " := by decide
  have hclause := OrderKey.neutral_clauseText h (by decide : Neutral "ORDER BY ") horder
  unfold orderText
  split
  · exact neutral_empty
  · exact hclause.append
      (neutral_ofOption_map fun f hf => hblank.append (f.neutral_text h (hframe f hf)))

theorem Analytic.neutral_text {a : Analytic ε} (hs : AllSafe (a.map strings).strings) :
    Neutral (a.map text).text := by
  simp only [Analytic.strings, Analytic.map, allSafe_append, allSafe_cons, allSafe_flatten,
    allSafe_flatMap, Option.toList_map, List.forall_mem_map] at hs
  obtain ⟨⟨⟨⟨⟨⟨⟨hname, hargument⟩, hoffset⟩, hdefault⟩, hkeep⟩, hpartition⟩, horder⟩, hframe⟩ := hs
  have hdistinct : Neutral "DISTINCT " := by decide
  have hnulls : Neutral " IGNORE NULLS" := by decide
  have hblank : Neutral " " := by decide
  have hkind : Neutral a.kind.token := by cases a.kind <;> decide
  have hclosing : Leads ['('] [] ") " := by decide
  have hwindow : Leads [] ['('] " (" := by decide
  have hkeepText : Neutral (ofOption (a.keep.map (Keep.map text)) fun k => k.text ++ " ") :=
    neutral_ofOption_map fun k hk => (k.neutral_text h (hkeep k hk)).append hblank
  -- The brackets of the arguments are closed before those of the window are opened.
  have harguments := (((hname.opening.past (hdistinct.onlyIf a.distinct)).past
    (a.neutral_argumentsText h hargument hoffset hdefault)).past
    (hnulls.onlyIf a.ignoreNulls)).append hclosing
  exact (((((harguments.past hkeepText).past hkind).append hwindow).past
    (a.neutral_partitionText h hpartition)).past (a.neutral_orderText h horder hframe)).append
    leads_closing

theorem GroupConcat.neutral_text {g : GroupConcat ε} (hs : AllSafe (g.map strings).strings) :
    Neutral (g.map text).text := by
  simp only [GroupConcat.strings, GroupConcat.map, allSafe_append, allSafe_flatten, allSafe_flatMap,
    allSafe_map_quoted, List.forall_mem_map] at hs
  obtain ⟨⟨harguments, horder⟩, hseparator⟩ := hs
  have hopening : Leads [] ['('] "GROUP_CONCAT(" := by decide
  have hdistinct : Neutral "DISTINCT " := by decide
  have hword : Neutral " SEPARATOR " := by decide
  have hclause := OrderKey.neutral_clauseText h (by decide : Neutral " ORDER BY ") horder
  have hquoted : Neutral (ofOption g.separator fun s => " SEPARATOR " ++ quoted s) :=
    neutral_ofOption fun s hs => hword.append (neutral_quoted (hseparator s hs))
  exact ((((hopening.past (hdistinct.onlyIf g.distinct)).past
    (Arguments.neutral_text h false harguments)).past hclause).past hquoted).append leads_closing

/-! ## Queries -/

theorem SelectItem.neutral_text {item : SelectItem ε} (hs : AllSafe (item.map strings).strings) :
    Neutral (item.map text).text := by
  cases item with
  | allColumns => exact (by decide : Neutral "*")
  | tableColumns table =>
    have hstar : Neutral ".*" := by decide
    exact (Table.neutral_qualifier hs).append hstar
  | expr e label =>
    obtain ⟨he, hlabel⟩ := allSafe_append.1 hs
    exact (h e he).append
      (neutral_ofOption fun l hl => Alias.neutral_text (allSafe_flatMap.1 hlabel l hl))

theorem Select.neutral_groupText {select : Select ε}
    (hs : ∀ e ∈ select.groupBy, AllSafe (strings e)) : Neutral (select.map text).groupText := by
  have hword : Neutral " GROUP BY " := by decide
  unfold groupText
  split
  · exact neutral_empty
  · exact hword.append (Arguments.neutral_text h false hs)

theorem Select.neutral_text {select : Select ε} (hs : AllSafe (select.map strings).strings) :
    Neutral (select.map text).text := by
  simp only [Select.strings, Select.map, allSafe_append, allSafe_flatten, allSafe_flatMap,
    Option.toList_map, List.forall_mem_map] at hs
  obtain ⟨⟨⟨⟨⟨⟨hitems, hsource⟩, hcondition⟩, hgroup⟩, hhaving⟩, horder⟩, hlimit⟩ := hs
  have hselect : Neutral "SELECT " := by decide
  have hdistinct : Neutral "DISTINCT " := by decide
  have hfrom : Neutral " FROM " := by decide
  have hwhere : Neutral " WHERE " := by decide
  have hword : Neutral " HAVING " := by decide
  have hlimitWord : Neutral " LIMIT " := by decide
  have hlist : Neutral
      (commaSeparated ((select.items.map (SelectItem.map text)).map SelectItem.text)) := by
    refine neutral_commaSeparated (List.forall_mem_map.2 (List.forall_mem_map.2 fun item hi => ?_))
    exact item.neutral_text h (hitems item hi)
  have hclause := OrderKey.neutral_clauseText h (by decide : Neutral " ORDER BY ") horder
  refine (((((((hselect.append (hdistinct.onlyIf select.distinct)).append hlist).append ?_).append
    ?_).append (select.neutral_groupText h hgroup)).append ?_).append hclause).append ?_
  · exact neutral_ofOption fun table ht => hfrom.append (Table.neutral_text (hsource table ht))
  · exact neutral_ofOption_map fun e he => hwhere.append (h e (hcondition e he))
  · exact neutral_ofOption_map fun e he => hword.append (h e (hhaving e he))
  · exact neutral_ofOption_map fun e he => hlimitWord.append (h e (hlimit e he))

theorem Query.neutral_text {query : Query ε} (hs : AllSafe (query.map strings).strings) :
    Neutral (query.map text).text := by
  induction query with
  | plain select => exact select.neutral_text h hs
  | compound op all left right ihl ihr =>
    obtain ⟨hleft, hright⟩ := allSafe_append.1 hs
    have hjoiner : Neutral (op.joiner all) := by cases op <;> cases all <;> decide
    exact ((ihl hleft).append hjoiner).append (ihr hright)

theorem CommonTable.neutral_text {table : CommonTable ε}
    (hs : AllSafe (table.map strings).strings) : Neutral (table.map text).text := by
  simp only [CommonTable.strings, CommonTable.map, allSafe_append, allSafe_cons,
    allSafe_map_plain] at hs
  obtain ⟨⟨hname, hcolumns⟩, hquery⟩ := hs
  have hopening : Leads [] ['('] " AS (" := by decide
  have hhead := hname.append (neutral_columnsText hcolumns)
  exact (((hhead.leads []).append hopening).past (table.query.neutral_text h hquery)).append
    leads_closing

theorem SubQuery.neutral_withText {sub : SubQuery ε}
    (hs : ∀ table ∈ sub.commonTables, AllSafe (table.map strings).strings) :
    Neutral (sub.map text).withText := by
  have hword : Neutral "WITH " := by decide
  have hblank : Neutral " " := by decide
  have htables : Neutral
      (commaSeparated ((sub.commonTables.map (CommonTable.map text)).map CommonTable.text)) := by
    refine neutral_commaSeparated (List.forall_mem_map.2 (List.forall_mem_map.2 fun table ht => ?_))
    exact table.neutral_text h (hs table ht)
  unfold withText
  split
  · exact neutral_empty
  · exact (hword.append htables).append hblank

theorem SubQuery.neutral_text {sub : SubQuery ε} (hs : AllSafe (sub.map strings).strings) :
    Neutral (sub.map text).text := by
  simp only [SubQuery.strings, SubQuery.map, allSafe_append, allSafe_flatMap,
    List.forall_mem_map] at hs
  obtain ⟨hquery, htables⟩ := hs
  have hopening : Leads [] (if sub.brackets then ['('] else []) (onlyIf sub.brackets "(") := by
    cases sub.brackets <;> decide
  have hclosing : Leads (if sub.brackets then ['('] else []) [] (onlyIf sub.brackets ")") := by
    cases sub.brackets <;> decide
  exact ((hopening.past (sub.neutral_withText h htables)).past
    (sub.query.neutral_text h hquery)).append hclosing

theorem Items.neutral_text {items : Items ε} (hs : AllSafe (items.map strings).strings) :
    Neutral (items.map text).text := by
  cases items with
  | list values =>
    have hvalues := List.forall_mem_map.1 (allSafe_flatten.1 hs)
    exact Arguments.neutral_text h true hvalues
  | rows lists =>
    refine neutral_commaSeparated (List.forall_mem_map.2 (List.forall_mem_map.2 fun list hl => ?_))
    have hlist := List.forall_mem_map.1 (allSafe_flatMap.1 hs) list hl
    exact Arguments.neutral_text h true (List.forall_mem_map.1 (allSafe_flatten.1 hlist))
  | query sub => exact sub.neutral_text h hs

theorem Member.neutral_text (join : OuterJoin) {member : Member ε}
    (hs : AllSafe (member.map strings).strings) : Neutral ((member.map text).text join) := by
  cases member with
  | expr e => exact (h e hs).append (OuterJoin.neutral_mark _)
  | items is => exact is.neutral_text h hs

/-! ## Expressions -/

theorem Node.neutral_text {n : Node ε} (hs : AllSafe (n.map strings).strings) :
    Neutral (n.map text).text := by
  have hblank : Neutral " " := by decide
  have hnegation : ∀ negated, Neutral (negationText negated) := by
    intro negated
    cases negated <;> decide
  have htest : ∀ negated, Neutral (testNegationText negated) := by
    intro negated
    cases negated <;> decide
  cases n with
  | binary left op right negated =>
    obtain ⟨hleft, hright⟩ := allSafe_append.1 hs
    exact (((((hnegation negated).append (h left hleft)).append hblank).append
      op.neutral_token).append hblank).append (h right hright)
  | comparison left op right negated join =>
    obtain ⟨hleft, hright⟩ := allSafe_append.1 hs
    exact (((((((hnegation negated).append (h left hleft)).append
      (OuterJoin.neutral_mark _)).append hblank).append op.neutral_token).append hblank).append
      (h right hright)).append (OuterJoin.neutral_mark _)
  | like left right negated ignoreCase escape =>
    simp only [Node.strings, Node.map, allSafe_append, allSafe_map_quoted] at hs
    obtain ⟨⟨hleft, hright⟩, hescape⟩ := hs
    have hword : Neutral (likeWord ignoreCase) := by cases ignoreCase <;> decide
    have hescapeWord : Neutral " ESCAPE " := by decide
    refine ((((((hnegation negated).append (h left hleft)).append hblank).append hword).append
      hblank).append (h right hright)).append ?_
    exact neutral_ofOption fun e he => hescapeWord.append (neutral_quoted (hescape e he))
  | between e start stop negated =>
    simp only [Node.strings, Node.map, allSafe_append] at hs
    obtain ⟨⟨he, hstart⟩, hstop⟩ := hs
    have hbetween : Neutral " BETWEEN " := by decide
    have hand : Neutral " AND " := by decide
    exact (((((h e he).append (htest negated)).append hbetween).append (h start hstart)).append
      hand).append (h stop hstop)
  | membership member items negated join =>
    obtain ⟨hmember, hitems⟩ := allSafe_append.1 hs
    have hin : Neutral " IN " := by decide
    exact (((member.neutral_text h join hmember).append (htest negated)).append hin).append
      (items.neutral_text h hitems)
  | isNull e negated oneWord =>
    have hnull : Neutral (nullTest negated oneWord) := by
      cases negated <;> cases oneWord <;> decide
    exact (h e hs).append hnull
  | existence e negated =>
    have hexists : Neutral (existenceTest negated) := by cases negated <;> decide
    exact hexists.append (h e hs)
  | not e =>
    have hnot : Neutral "NOT " := by decide
    exact hnot.append (h e hs)
  | signed sign e =>
    have hsign : Neutral sign.token := by cases sign <;> decide
    exact hsign.append (h e hs)
  | brackets e negated => exact (hnegation negated).append (h e hs).bracketed
  | case c => exact c.neutral_text h hs
  | call c => exact c.neutral_text h hs
  | analytic a => exact a.neutral_text h hs
  | groupConcat g => exact g.neutral_text h hs
  | cast e type keyword =>
    obtain ⟨he, htype⟩ := allSafe_append.1 hs
    have htype := DataType.neutral_sql htype
    have hopening : Leads [] ['('] "CAST(" := by decide
    have has : Neutral " AS " := by decide
    have hcolons : Neutral "::" := by decide
    cases keyword with
    | true => exact (((hopening.past (h e he)).past has).past htype).append leads_closing
    | false => exact ((h e he).append hcolons).append htype
  | extract field e =>
    obtain ⟨hfield, he⟩ := allSafe_cons.1 hs
    have hopening : Leads [] ['('] "EXTRACT(" := by decide
    have hfrom : Neutral " FROM " := by decide
    exact (((hopening.past hfield).past hfrom).past (h e he)).append leads_closing
  | interval amount unit =>
    obtain ⟨hamount, hunit⟩ := allSafe_cons.1 hs
    have hword : Neutral "INTERVAL " := by decide
    refine (hword.append hamount).append ?_
    exact neutral_ofOption fun u hu => hblank.append (allSafe_map_plain.1 hunit u hu)
  | row name elements =>
    obtain ⟨hname, helements⟩ := allSafe_append.1 hs
    have helements := List.forall_mem_map.1 (allSafe_flatten.1 helements)
    exact (neutral_ofOption (allSafe_map_plain.1 hname)).append
      (Arguments.neutral_text h true helements)
  | values elements =>
    exact Arguments.neutral_text h true (List.forall_mem_map.1 (allSafe_flatten.1 hs))
  | column c => exact Column.neutral_text hs
  | document c path =>
    obtain ⟨hcolumn, hpath⟩ := allSafe_append.1 hs
    refine (Column.neutral_text hcolumn).append (neutral_join (List.forall_mem_map.2 ?_))
    exact fun step hstep => PathStep.neutral_text (allSafe_flatMap.1 hpath step hstep)
  | literal l => exact Literal.neutral_text hs
  | parameter p => exact Parameter.neutral_text hs
  | sessionVariable name system =>
    have hsign : Neutral (variableSign system) := by cases system <;> decide
    exact hsign.append (allSafe_cons.1 hs).1
  | timeKey word => exact (allSafe_cons.1 hs).1
  | subQuery query => exact query.neutral_text h hs
  | allOf query =>
    have hall : Neutral "ALL " := by decide
    exact hall.append (query.neutral_text h hs)
  | anyOf word query =>
    have hword : Neutral word.token := by cases word <;> decide
    exact (hword.append hblank).append (query.neutral_text h hs)
  | hierarchical start connect noCycle =>
    simp only [Node.strings, Node.map, allSafe_append, allSafe_flatten, Option.toList_map,
      List.forall_mem_map] at hs
    obtain ⟨hstart, hconnect⟩ := hs
    have hstartWord : Neutral " START WITH " := by decide
    have hconnectWord : Neutral " CONNECT BY " := by decide
    have hnoCycle : Neutral "NOCYCLE " := by decide
    refine (((?_ : Neutral _).append hconnectWord).append (hnoCycle.onlyIf noCycle)).append
      (h connect hconnect)
    exact neutral_ofOption_map fun e he => hstartWord.append (h e (hstart e he))
  | hint x => exact Hint.neutral_text hs

end Clauses

/-- Strings and a text that is neutral if they are safe. -/
structure SafeText where
  strings : List TreeString
  text : String
  neutral : AllSafe strings → Neutral text

/-- The strings and the text of a node, given those of its sub-expressions. -/
def Node.safeText (n : Node SafeText) : SafeText where
  strings := (n.map SafeText.strings).strings
  text := (n.map SafeText.text).text
  neutral := n.neutral_text SafeText.neutral

namespace Expr

/-- The strings and the text of an expression. -/
def safeText : Expr → SafeText :=
  fold Node.safeText

theorem safeText_strings (e : Expr) : e.safeText.strings = e.strings := by
  refine eq_fold (f := fun e => e.safeText.strings) (fun n => ?_) e
  rw [safeText, fold_node]
  exact congrArg Node.strings (Node.map_map _ _ n)

theorem safeText_text (e : Expr) : e.safeText.text = e.sql := by
  refine eq_fold (f := fun e => e.safeText.text) (fun n => ?_) e
  rw [safeText, fold_node]
  exact congrArg Node.text (Node.map_map _ _ n)

/-- If every string that is written as it is is neutral, and in every string that is written between
quotes the quotes are doubled, then the text of the tree is neutral. -/
theorem neutral_sql_of_allSafe (e : Expr) (h : AllSafe e.strings) : Neutral e.sql := by
  rw [← safeText_text]
  exact e.safeText.neutral (e.safeText_strings ▸ h)

/-- Brackets and doubled quotes in quoted strings, and brackets in a name. -/
theorem neutral_sql_of_allSafe_like :
    let text := Expr.node (.literal (.string ⟨some "N", "it''s ("⟩))
    let call := Expr.node (.call ⟨"f", some [text], some .distinct, false, true, none, none⟩)
    let column := Expr.node (.column ⟨none, "a[1]"⟩)
    let concat := Expr.node (.groupConcat ⟨false, [column], [.ofExpr column], some "]"⟩)
    let e := Expr.node (.like call concat true false (some "''"))
    AllSafe e.strings ∧
      e.sql = "NOT \x7bfn f(DISTINCT N'it''s (')\x7d LIKE " ++
        "GROUP_CONCAT(a[1] ORDER BY a[1] SEPARATOR ']') ESCAPE ''''" ∧ Neutral e.sql := by
  intro text call column concat e
  have h : AllSafe e.strings := by decide +kernel
  exact ⟨h, by decide +kernel, e.neutral_sql_of_allSafe h⟩

end Expr

end SqlText
