import SqlText.Proofs.Layout.Text
import SqlText.Proofs.Text.Scanning
import SqlText.Proofs.Text.Strings

/-!
# Words without plus

Of the words that the grammar puts between strings and sub-expressions few hold the character `+` :
the operator and the sign, the mark of an outer join, the openings of hints and the signs of years.
All other words have none. So the text of a node of any other kind has no plus if its strings and
the texts of its sub-expressions have none (`Node.plusFree_text`), and likewise for each clause.
-/

namespace SqlText

variable {ε : Type}

namespace Text

/-- A text without the character `+`. -/
def PlusFree (text : String) : Prop :=
  '+' ∉ text.toList
  deriving Decidable

@[simp] theorem plusFree_empty : PlusFree "" := by decide

@[simp] theorem plusFree_append {first second : String} :
    PlusFree (first ++ second) ↔ PlusFree first ∧ PlusFree second := by
  simp [PlusFree]

@[simp] theorem plusFree_onlyIf {condition : Bool} {text : String} :
    PlusFree (onlyIf condition text) ↔ (condition → PlusFree text) := by
  cases condition <;> simp [onlyIf]

@[simp] theorem plusFree_ofOption {α : Type} {part : Option α} {text : α → String} :
    PlusFree (ofOption part text) ↔ ∀ a ∈ part, PlusFree (text a) := by
  cases part <;> simp [ofOption]

@[simp] theorem plusFree_join {texts : List String} :
    PlusFree (String.join texts) ↔ ∀ text ∈ texts, PlusFree text := by
  induction texts with
  | nil => simp
  | cons text rest ih => simp [ih]

@[simp] theorem plusFree_commaSeparated : ∀ texts : List String,
    PlusFree (commaSeparated texts) ↔ ∀ text ∈ texts, PlusFree text
  | [] => by simp [commaSeparated]
  | [text] => by simp [commaSeparated]
  | first :: second :: rest => by
    have ih := plusFree_commaSeparated (second :: rest)
    have hcomma : PlusFree ", " := by decide
    rw [commaSeparated] at ih ⊢
    rw [String.intercalate_cons_cons, plusFree_append, plusFree_append, ih]
    simp [hcomma]

@[simp] theorem plusFree_bracketed {text : String} :
    PlusFree (bracketed text) ↔ PlusFree text := by
  have hopening : PlusFree "(" := by decide
  have hclosing : PlusFree ")" := by decide
  simp [bracketed, hopening, hclosing]

@[simp] theorem plusFree_quoted {text : String} : PlusFree (quoted text) ↔ PlusFree text := by
  have hquote : PlusFree "'" := by decide
  simp [quoted, hquote]

@[simp] theorem plusFree_repr (n : Nat) : PlusFree n.repr := by
  intro hmem
  have hdigit := isDigit_of_mem_toString hmem
  cases hdigit

end Text

/-! ## Words of the grammar -/

open Text

@[simp] theorem TreeString.text_plain (text : String) : (plain text).text = text := rfl

@[simp] theorem TreeString.text_quoted (text : String) : (quoted text).text = text := rfl

theorem Alias.plusFree_text {label : Alias} (h : ∀ s ∈ label.strings, PlusFree s.text) :
    PlusFree label.text := by
  have hjoiner : PlusFree label.joiner := by
    unfold joiner
    split <;> decide
  simpa [text, strings, hjoiner] using h

namespace Table

theorem plusFree_fullName {table : Table} (h : ∀ s ∈ table.strings, PlusFree s.text) :
    PlusFree table.fullName := by
  simp only [strings, List.forall_mem_append, List.forall_mem_cons, List.forall_mem_map] at h
  obtain ⟨hschema, hname, -⟩ := h
  have hdot : PlusFree "." := by decide
  unfold fullName
  split
  · exact hname
  · next schema hs =>
    have hschema : PlusFree schema := hschema schema (by simp [hs])
    split_ifs
    · exact hschema
    · exact hname
    · simp only [plusFree_append]
      exact ⟨⟨hschema, hdot⟩, hname⟩

theorem plusFree_qualifier {table : Table} (h : ∀ s ∈ table.strings, PlusFree s.text) :
    PlusFree table.qualifier := by
  unfold qualifier
  split
  · next label hl => exact h (.plain label.name) (by simp [strings, Alias.strings, hl])
  · exact plusFree_fullName h

theorem plusFree_text {table : Table} (h : ∀ s ∈ table.strings, PlusFree s.text) :
    PlusFree table.text := by
  have hname := plusFree_fullName h
  simp only [strings, List.forall_mem_append, List.forall_mem_cons, List.forall_mem_flatMap] at h
  obtain ⟨-, -, hlabel⟩ := h
  simp only [text, plusFree_append, plusFree_ofOption]
  exact ⟨hname, fun label hl => Alias.plusFree_text (hlabel label (Option.mem_toList.2 hl))⟩

end Table

theorem Column.plusFree_text {column : Column} (h : ∀ s ∈ column.strings, PlusFree s.text) :
    PlusFree column.text := by
  simp only [strings, List.forall_mem_append, List.forall_mem_flatMap, List.forall_mem_cons] at h
  obtain ⟨htable, hname, -⟩ := h
  have hdot : PlusFree "." := by decide
  unfold text
  split
  · exact hname
  · next table ht =>
    have hqualifier := Table.plusFree_qualifier (htable table (by simp [ht]))
    split_ifs
    · exact hname
    · simp only [plusFree_append]
      exact ⟨⟨hqualifier, hdot⟩, hname⟩

theorem PathStep.plusFree_text {step : PathStep} (h : ∀ s ∈ step.strings, PlusFree s.text) :
    PlusFree step.text := by
  have hop : PlusFree step.op.token := by cases step.op <;> decide
  simpa [text, strings, hop] using h

theorem QuotedText.plusFree_text {q : QuotedText} (h : ∀ s ∈ q.strings, PlusFree s.text) :
    PlusFree q.text := by
  simp only [strings, List.forall_mem_append, List.forall_mem_map, List.forall_mem_singleton,
    Option.mem_toList] at h
  simpa [text] using h

theorem Parameter.plusFree_text {p : Parameter} (h : ∀ s ∈ p.strings, PlusFree s.text) :
    PlusFree p.text := by
  cases p <;> simp_all +decide [text, strings]

namespace DataType

theorem plusFree_withPrecision {name : String} (hname : PlusFree name)
    (precision scale : Option UInt16) : PlusFree (withPrecision name precision scale) := by
  cases precision <;> cases scale <;> simp +decide [withPrecision, hname]

theorem plusFree_withLength {name : String} (hname : PlusFree name) (length : Option UInt32) :
    PlusFree (withLength name length) := by
  cases length <;> simp +decide [withLength, hname]

theorem plusFree_sql {type : DataType} (h : ∀ s ∈ type.strings, PlusFree s.text) :
    PlusFree type.sql := by
  induction type with
  | array element ih => simp_all +decide [sql, strings]
  | decimal precision scale => exact plusFree_withPrecision (by decide) precision scale
  | numeric precision scale => exact plusFree_withPrecision (by decide) precision scale
  | char length => exact plusFree_withLength (by decide) length
  | varchar length => exact plusFree_withLength (by decide) length
  | varbinary length => exact plusFree_withLength (by decide) length
  | custom name => exact (List.forall_mem_cons.1 h).1
  | _ => decide

end DataType

/-- Whether no word of a node has a plus, whatever stands in the node. -/
def Node.hasPlainWords : Node ε → Bool
  | binary _ _ _ _ => false
  | comparison _ _ _ _ _ => false
  | membership _ _ _ _ => false
  | signed _ _ => false
  | literal _ => false
  | hint _ => false
  | _ => true

section Clauses

variable {strings : ε → List TreeString} {text : ε → String}
  (ht : ∀ e, PlusFree (text e))

include ht

theorem Arguments.plusFree_text (brackets : Bool) (arguments : List ε) :
    PlusFree (Arguments.text brackets (arguments.map text)) := by
  cases brackets <;> simp [Arguments.text, ht]

theorem OrderKey.plusFree_text (key : OrderKey ε) : PlusFree (key.map text).text := by
  have hdirection : ∀ d : Direction, PlusFree (suffix d.token) := by
    intro d
    cases d <;> decide
  have hnulls : ∀ n : NullPlacement, PlusFree (suffix n.token) := by
    intro n
    cases n <;> decide
  simp [OrderKey.text, map, ht, hdirection, hnulls]

theorem OrderKey.plusFree_clauseText {intro : String} (h : PlusFree intro)
    (keys : List (OrderKey ε)) : PlusFree (clauseText intro (keys.map (OrderKey.map text))) := by
  have hkey := OrderKey.plusFree_text ht
  cases keys <;> simp [clauseText, h, hkey]

theorem Keep.plusFree_text {keep : Keep ε} (h : ∀ s ∈ (keep.map strings).strings, PlusFree s.text) :
    PlusFree (keep.map text).text := by
  have hrank : PlusFree (keep.map text).rank := by
    unfold rank
    split <;> decide
  have hclause := OrderKey.plusFree_clauseText ht (by decide : PlusFree " ORDER BY ") keep.orderBy
  have hname : PlusFree keep.name := (List.forall_mem_cons.1 h).1
  simp only [Keep.text, plusFree_append, hrank]
  simp +decide [map, hclause, hname]

theorem Frame.plusFree_text (frame : Frame ε) : PlusFree (frame.map text).text := by
  have hunit : PlusFree frame.unit.token := by cases frame.unit <;> decide
  have hbound : ∀ bound : FrameBound ε, PlusFree (bound.map text).text := by
    intro bound
    cases bound <;> simp +decide [FrameBound.text, FrameBound.map, ht]
  have hextent : PlusFree (frame.extent.map text).text := by
    cases frame.extent <;> simp +decide [FrameExtent.text, FrameExtent.map, hbound]
  simp +decide [Frame.text, map, hunit, hextent]

theorem Case.plusFree_text (c : Case ε) : PlusFree (c.map text).text := by
  simp +decide [Case.text, map, When.text, When.map, ht]

theorem Call.plusFree_text {call : Call ε} (h : ∀ s ∈ (call.map strings).strings, PlusFree s.text) :
    PlusFree (call.map text).text := by
  have harguments : PlusFree (call.map text).argumentsText := by
    have hlist := Arguments.plusFree_text ht
    have hquantifier : ∀ q : SetQuantifier, PlusFree q.token := by
      intro q
      cases q <;> decide
    unfold argumentsText
    cases ha : call.arguments <;> cases hq : call.quantifier <;> cases hc : call.allColumns <;>
      simp +decide [map, ha, hq, hc, hlist, hquantifier]
  simp only [Call.strings, map, List.forall_mem_cons, List.forall_mem_append,
    List.forall_mem_flatMap, List.forall_mem_map, Option.toList_map, Option.mem_toList] at h
  obtain ⟨⟨⟨hname, -⟩, hfield⟩, hkeep⟩ := h
  have hkeep : ∀ keep ∈ call.keep, PlusFree (keep.map text).text := fun keep hk =>
    Keep.plusFree_text ht (hkeep keep hk)
  rw [TreeString.text_plain] at hname
  simp only [Call.text, plusFree_append, harguments]
  simpa +decide [map, hname] using And.intro hfield hkeep

namespace Analytic

theorem plusFree_argumentsText (a : Analytic ε) : PlusFree (a.map text).argumentsText := by
  unfold argumentsText
  cases ha : a.argument <;> simp +decide [map, ha, ht]

theorem plusFree_orderText (a : Analytic ε) : PlusFree (a.map text).orderText := by
  have hclause := OrderKey.plusFree_clauseText ht (by decide : PlusFree "ORDER BY ") a.orderBy
  have hframe := Frame.plusFree_text ht
  unfold orderText
  cases ho : a.orderBy <;> simp_all +decide [map]

theorem plusFree_text {a : Analytic ε} (h : ∀ s ∈ (a.map strings).strings, PlusFree s.text) :
    PlusFree (a.map text).text := by
  have hpartition : PlusFree (a.map text).partitionText := by
    unfold partitionText
    cases hp : a.partitionBy <;> simp +decide [map, hp, ht]
  have hkind : PlusFree a.kind.token := by cases a.kind <;> decide
  simp only [Analytic.strings, map, List.forall_mem_cons, List.forall_mem_append,
    List.forall_mem_flatMap, List.forall_mem_map, Option.toList_map, Option.mem_toList] at h
  obtain ⟨⟨⟨⟨⟨⟨⟨hname, -⟩, -⟩, -⟩, hkeep⟩, -⟩, -⟩, -⟩ := h
  have hkeep : ∀ keep ∈ a.keep, PlusFree (keep.map text).text := fun keep hk =>
    Keep.plusFree_text ht (hkeep keep hk)
  rw [TreeString.text_plain] at hname
  simp only [Analytic.text, plusFree_append, plusFree_argumentsText ht, plusFree_orderText ht,
    hpartition]
  simpa +decide [map, hname, hkind] using hkeep

end Analytic

theorem GroupConcat.plusFree_text {g : GroupConcat ε}
    (h : ∀ s ∈ (g.map strings).strings, PlusFree s.text) : PlusFree (g.map text).text := by
  have hlist := Arguments.plusFree_text ht
  have hclause := OrderKey.plusFree_clauseText ht (by decide : PlusFree " ORDER BY ") g.orderBy
  simp only [GroupConcat.strings, map, List.forall_mem_append, List.forall_mem_map] at h
  -- The equation of `text` is slow to derive, its unfolding is not.
  delta GroupConcat.text
  simpa +decide [map, hlist, hclause] using h.2

theorem SelectItem.plusFree_text {item : SelectItem ε}
    (h : ∀ s ∈ (item.map strings).strings, PlusFree s.text) : PlusFree (item.map text).text := by
  cases item with
  | allColumns => exact (by decide : PlusFree "*")
  | tableColumns table =>
    have hqualifier := Table.plusFree_qualifier h
    simp +decide [SelectItem.text, map, hqualifier]
  | expr e label =>
    simp only [SelectItem.strings, map, List.forall_mem_append, List.forall_mem_flatMap,
      Option.mem_toList] at h
    have hlabel : ∀ l ∈ label, PlusFree l.text := fun l hl => Alias.plusFree_text (h.2 l hl)
    simpa [SelectItem.text, map, ht] using hlabel

theorem Select.plusFree_text {select : Select ε}
    (h : ∀ s ∈ (select.map strings).strings, PlusFree s.text) :
    PlusFree (select.map text).text := by
  have hgroup : PlusFree (select.map text).groupText := by
    unfold groupText
    cases hg : select.groupBy <;> simp +decide [map, hg, ht]
  have hclause :=
    OrderKey.plusFree_clauseText ht (by decide : PlusFree " ORDER BY ") select.orderBy
  simp only [Select.strings, map, List.forall_mem_append, List.forall_mem_flatMap,
    List.forall_mem_map, Option.mem_toList] at h
  obtain ⟨⟨⟨⟨⟨⟨hitems, hsource⟩, -⟩, -⟩, -⟩, -⟩, -⟩ := h
  have hitems : ∀ item ∈ select.items, PlusFree (item.map text).text := fun item hi =>
    SelectItem.plusFree_text ht (hitems item hi)
  have hsource : ∀ table ∈ select.source, PlusFree table.text := fun table hs =>
    Table.plusFree_text (hsource table hs)
  delta Select.text
  simp only [plusFree_append, hgroup]
  simpa +decide [map, hclause, ht] using And.intro hitems hsource

theorem Query.plusFree_text {query : Query ε}
    (h : ∀ s ∈ (query.map strings).strings, PlusFree s.text) : PlusFree (query.map text).text := by
  induction query with
  | plain select => exact Select.plusFree_text ht h
  | compound op all left right ihl ihr =>
    obtain ⟨hleft, hright⟩ := List.forall_mem_append.1 h
    have hjoiner : PlusFree (op.joiner all) := by cases op <;> cases all <;> decide
    simp [Query.text, map, ihl hleft, ihr hright, hjoiner]

theorem CommonTable.plusFree_text {table : CommonTable ε}
    (h : ∀ s ∈ (table.map strings).strings, PlusFree s.text) : PlusFree (table.map text).text := by
  simp only [CommonTable.strings, map, List.forall_mem_append, List.forall_mem_cons,
    List.forall_mem_map] at h
  obtain ⟨⟨hname, hcolumns⟩, hquery⟩ := h
  have hcolumns : PlusFree (columnsText table.columns) := by
    unfold columnsText
    split_ifs <;> simp_all +decide
  have hquery := Query.plusFree_text ht hquery
  rw [TreeString.text_plain] at hname
  simp +decide [CommonTable.text, map, hname, hcolumns, hquery]

theorem SubQuery.plusFree_text {sub : SubQuery ε}
    (h : ∀ s ∈ (sub.map strings).strings, PlusFree s.text) : PlusFree (sub.map text).text := by
  simp only [SubQuery.strings, map, List.forall_mem_append, List.forall_mem_flatMap,
    List.forall_mem_map] at h
  obtain ⟨hquery, htables⟩ := h
  have htables : ∀ table ∈ sub.commonTables, PlusFree (table.map text).text := fun table hmem =>
    CommonTable.plusFree_text ht (htables table hmem)
  have hwith : PlusFree (sub.map text).withText := by
    unfold withText
    split_ifs <;> simp_all +decide [map]
  have hquery := Query.plusFree_text ht hquery
  simp only [SubQuery.text, plusFree_append, hwith]
  simp +decide [map, hquery]

theorem Items.plusFree_text {items : Items ε}
    (h : ∀ s ∈ (items.map strings).strings, PlusFree s.text) : PlusFree (items.map text).text := by
  have hlist := Arguments.plusFree_text ht true
  cases items with
  | list values => exact hlist values
  | rows lists => simp [Items.text, map, hlist]
  | query sub => exact SubQuery.plusFree_text ht h

theorem Node.plusFree_text {n : Node ε} (h : ∀ s ∈ (n.map strings).strings, PlusFree s.text)
    (hplain : n.hasPlainWords) : PlusFree (n.map text).text := by
  have hlist := Arguments.plusFree_text ht true
  cases n with
  | binary => cases hplain
  | comparison => cases hplain
  | membership => cases hplain
  | signed => cases hplain
  | literal => cases hplain
  | hint => cases hplain
  | like left right negated ignoreCase escape =>
    have hword : PlusFree (likeWord ignoreCase) := by cases ignoreCase <;> decide
    have hescape : ∀ e ∈ escape, PlusFree e := by simpa using (List.forall_mem_append.1 h).2
    simpa +decide [map, Node.text, negationText, hword, ht] using hescape
  | between e start stop negated => simp +decide [map, Node.text, testNegationText, ht]
  | isNull e negated oneWord =>
    have hword : PlusFree (nullTest negated oneWord) := by
      cases negated <;> cases oneWord <;> decide
    simp [map, Node.text, hword, ht]
  | existence e negated =>
    have hword : PlusFree (existenceTest negated) := by cases negated <;> decide
    simp [map, Node.text, hword, ht]
  | not e => simp +decide [map, Node.text, ht]
  | brackets e negated => simp +decide [map, Node.text, negationText, ht]
  | case c => exact Case.plusFree_text ht c
  | call c => exact Call.plusFree_text ht h
  | analytic a => exact Analytic.plusFree_text ht h
  | groupConcat g => exact GroupConcat.plusFree_text ht h
  | cast e type keyword =>
    have htype : PlusFree type.sql := DataType.plusFree_sql (List.forall_mem_append.1 h).2
    cases keyword <;> simp +decide [map, Node.text, htype, ht]
  | extract field e =>
    have hfield : PlusFree field := (List.forall_mem_cons.1 h).1
    simp +decide [map, Node.text, hfield, ht]
  | interval amount unit =>
    have hamount : PlusFree amount := (List.forall_mem_cons.1 h).1
    have hunit : ∀ u ∈ unit, PlusFree u := by simpa using (List.forall_mem_cons.1 h).2
    simpa +decide [map, Node.text, hamount] using hunit
  | row name elements =>
    have hname : ∀ text ∈ name, PlusFree text := by simpa using (List.forall_mem_append.1 h).1
    simp only [map, Node.text, plusFree_append, plusFree_ofOption]
    exact ⟨hname, hlist elements⟩
  | values elements => exact hlist elements
  | column c => exact Column.plusFree_text h
  | document c path =>
    obtain ⟨hcolumn, hpath⟩ := List.forall_mem_append.1 h
    simp only [map, Node.text, plusFree_append, plusFree_join, List.forall_mem_map]
    exact ⟨Column.plusFree_text hcolumn, fun step hstep =>
      PathStep.plusFree_text (List.forall_mem_flatMap.1 hpath step hstep)⟩
  | parameter p => exact Parameter.plusFree_text h
  | sessionVariable name system =>
    have hname : PlusFree name := (List.forall_mem_cons.1 h).1
    cases system <;> simp +decide [map, Node.text, variableSign, hname]
  | timeKey word => exact (List.forall_mem_cons.1 h).1
  | subQuery query => exact SubQuery.plusFree_text ht h
  | allOf query => simp +decide [map, Node.text, SubQuery.plusFree_text ht h]
  | anyOf word query => cases word <;> simp +decide [map, Node.text, SubQuery.plusFree_text ht h]
  | hierarchical start connect noCycle => simp +decide [map, Node.text, ht]

end Clauses

end SqlText
