import SqlText.Proofs.Handoff.Records

/-!
# Redacted queries

The rules for expressions never look into a query : they write what stands around it and leave the
query to the renderer. `Expr.redacted` blanks out all that is left to the renderer, namely of every
sub-query its query, and of its common tables all but the names. Isolated parts are kept, since
their queries are written in the built-in way.

The placeholder renderer writes a mark for a query and the name of a common table. Under this
renderer two expressions that cannot be told apart after the redaction are rendered alike
(`Session.render_of_redacted_eq`). The redaction of a tree is one of its layout
(`Expr.layout_redacted`), and the steps of a redacted layout write the same text
(`Layout.text_steps_redact`).
-/

namespace SqlText

variable {ε δ φ : Type}

/-! ## Redaction of trees -/

/-- The query that stands for every other one. -/
def Query.blank : Query ε :=
  .plain (.ofItems [])

/-- Of a common table only the name is kept. -/
def CommonTable.redact (table : CommonTable ε) : CommonTable δ :=
  ⟨table.name, [], .blank⟩

/-- The brackets and the names of the common tables are kept. -/
def SubQuery.redact (sub : SubQuery ε) : SubQuery δ :=
  ⟨.blank, sub.commonTables.map CommonTable.redact, sub.brackets⟩

/-- A query among the items is redacted; to values the given function is applied. -/
def Items.redact (f : ε → δ) : Items ε → Items δ
  | query sub => query sub.redact
  | items => items.map f

/-- The left side of a membership test is redacted as the right side is. -/
def Member.redact (f : ε → δ) : Member ε → Member δ
  | expr e => expr (f e)
  | items is => items (is.redact f)

/-- The offsets of the frame are isolated. -/
def Analytic.redact (isolated f : ε → δ) (a : Analytic ε) : Analytic δ :=
  { a.map f with frame := a.frame.map (Frame.map isolated) }

/-- Redacts the sub-queries of a node and applies one function to the isolated sub-expressions and
another one to the others. -/
def Node.redact (isolated f : ε → δ) : Node ε → Node δ
  | membership member items negated join =>
    membership (member.redact f) (items.redact f) negated join
  | analytic a => analytic (a.redact isolated f)
  | cast e type keyword => cast (isolated e) type keyword
  | subQuery query => subQuery query.redact
  | allOf query => allOf query.redact
  | anyOf word query => anyOf word query.redact
  | n => n.map f

/-- The expression with all blanked out that is left to the query renderer. -/
def Expr.redacted : Expr → Expr :=
  para fun n => .node (n.redact Prod.fst Prod.snd)

/-! ### Redaction before and after a map -/

theorem SubQuery.map_redact (g : δ → φ) (sub : SubQuery ε) :
    (sub.redact : SubQuery δ).map g = sub.redact := by
  simp only [redact, map, List.map_map]
  rfl

theorem SubQuery.redact_map (g : ε → δ) (sub : SubQuery ε) :
    ((sub.map g).redact : SubQuery φ) = sub.redact := by
  simp only [redact, map, List.map_map]
  rfl

theorem Items.map_redact (g : δ → φ) (f : ε → δ) (items : Items ε) :
    (items.redact f).map g = items.redact (g ∘ f) := by
  cases items with
  | query sub => exact congrArg query (SubQuery.map_redact g sub)
  | _ => simp only [redact, Items.map_map]

theorem Items.redact_map (f : δ → φ) (g : ε → δ) (items : Items ε) :
    (items.map g).redact f = items.redact (f ∘ g) := by
  cases items with
  | query sub => exact congrArg query (SubQuery.redact_map g sub)
  | _ => simp [redact, map, Function.comp_def]

theorem Member.map_redact (g : δ → φ) (f : ε → δ) (member : Member ε) :
    (member.redact f).map g = member.redact (g ∘ f) := by
  cases member with
  | expr e => rfl
  | items is => exact congrArg items (Items.map_redact g f is)

theorem Member.redact_map (f : δ → φ) (g : ε → δ) (member : Member ε) :
    (member.map g).redact f = member.redact (f ∘ g) := by
  cases member with
  | expr e => rfl
  | items is => exact congrArg items (Items.redact_map f g is)

theorem Analytic.map_redact (g : δ → φ) (isolated f : ε → δ) (a : Analytic ε) :
    (a.redact isolated f).map g = a.redact (g ∘ isolated) (g ∘ f) := by
  simp [redact, map, Function.comp_def, Keep.map_map, OrderKey.map_map, Frame.map_map]

theorem Analytic.redact_map (isolated f : δ → φ) (g : ε → δ) (a : Analytic ε) :
    (a.map g).redact isolated f = a.redact (isolated ∘ g) (f ∘ g) := by
  simp [redact, map, Function.comp_def, Keep.map_map, OrderKey.map_map, Frame.map_map]

theorem Node.map_redact (g : δ → φ) (isolated f : ε → δ) (n : Node ε) :
    (n.redact isolated f).map g = n.redact (g ∘ isolated) (g ∘ f) := by
  cases n with
  | membership member items negated join =>
    simp only [redact, map, Member.map_redact, Items.map_redact]
  | analytic a => exact congrArg analytic (Analytic.map_redact g isolated f a)
  | cast e type keyword => rfl
  | subQuery query => exact congrArg subQuery (SubQuery.map_redact g query)
  | allOf query => exact congrArg allOf (SubQuery.map_redact g query)
  | anyOf word query => exact congrArg (anyOf word) (SubQuery.map_redact g query)
  | _ => simp only [redact, Node.map_map]

theorem Node.redact_map (isolated f : δ → φ) (g : ε → δ) (n : Node ε) :
    (n.map g).redact isolated f = n.redact (isolated ∘ g) (f ∘ g) := by
  cases n with
  | membership member items negated join =>
    simp only [redact, map, Member.redact_map, Items.redact_map]
  | analytic a => exact congrArg analytic (Analytic.redact_map isolated f g a)
  | cast e type keyword => rfl
  | subQuery query => exact congrArg subQuery (SubQuery.redact_map g query)
  | allOf query => exact congrArg allOf (SubQuery.redact_map g query)
  | anyOf word query => exact congrArg (anyOf word) (SubQuery.redact_map g query)
  | _ => simp [redact, map, Function.comp_def, Case.map_map, Call.map_map, GroupConcat.map_map]

/-- The redaction of a tree : isolated sub-expressions stay as they are, the others are redacted. -/
theorem Expr.redacted_node (n : Node Expr) :
    (Expr.node n).redacted = .node (n.redact id Expr.redacted) := by
  rw [redacted, para_node, Node.redact_map]
  rfl

/-! ## Redaction of layouts -/

/-- The layout with all blanked out that is left to the query renderer. -/
@[simp] def Layout.redact : Layout → Layout
  | .empty => .empty
  | .token text => .token text
  | .verbatim text => .verbatim text
  | .append first second => .append first.redact second.redact
  | .isolated inner => .isolated inner
  | .commonTable name _ _ => .commonTable name [] Query.blank.body
  | .query _ => .query Query.blank.body

namespace Layout

@[simp] theorem redact_append (first second : Layout) :
    (first ++ second).redact = first.redact ++ second.redact := by
  show (Layout.append first second).redact = _
  rw [redact]
  rfl

/-- Where nothing is handed over there is nothing to redact. -/
theorem redact_of_places_eq_nil : ∀ l : Layout, l.places = [] → l.redact = l
  | .empty, _ => by rw [redact]
  | .token t, _ => by rw [redact]
  | .verbatim t, _ => by rw [redact]
  | .append first second, h => by
    rw [places, List.append_eq_nil_iff, List.map_eq_nil_iff] at h
    rw [redact, redact_of_places_eq_nil first h.1, redact_of_places_eq_nil second h.2]
  | .isolated inner, _ => by rw [redact]
  | .commonTable name columns body, h => by simp [places] at h
  | .query body, h => by simp [places] at h

theorem redact_of_marks_eq_nil {l : Layout} (h : l.marks = []) : l.redact = l :=
  redact_of_places_eq_nil l (List.map_eq_nil_iff.1 h)

@[simp] theorem redact_onlyIf (condition : Bool) (l : Layout) :
    (onlyIf condition l).redact = onlyIf condition l.redact := by
  cases condition <;> simp [onlyIf]

@[simp] theorem redact_ofOption {α : Type} (part : Option α) (layout : α → Layout) :
    (ofOption part layout).redact = ofOption part fun a => (layout a).redact := by
  cases part <;> simp [ofOption]

@[simp] theorem redact_concat (ls : List Layout) :
    (concat ls).redact = concat (ls.map redact) := by
  induction ls with
  | nil => simp [concat]
  | cons l rest ih => simp [concat, ih]

@[simp] theorem redact_separatedBy (separator : String) :
    ∀ ls : List Layout, (separatedBy separator ls).redact = separatedBy separator (ls.map redact)
  | [] => by simp [separatedBy]
  | [last] => by simp [separatedBy]
  | first :: second :: rest => by
    have ih := redact_separatedBy separator (second :: rest)
    simp only [List.map_cons] at ih
    simp [separatedBy, ih]

@[simp] theorem redact_commaSeparated (ls : List Layout) :
    (commaSeparated ls).redact = commaSeparated (ls.map redact) :=
  redact_separatedBy ", " ls

@[simp] theorem redact_bracketed (l : Layout) :
    (bracketed l).redact = bracketed l.redact := by
  simp [bracketed]

end Layout

/-! ### Clauses -/

theorem Arguments.redact_layout (brackets : Bool) (arguments : List Layout) :
    (Arguments.layout brackets arguments).redact =
      Arguments.layout brackets (arguments.map Layout.redact) := by
  cases brackets <;> simp [Arguments.layout]

namespace OrderKey

theorem redact_layout (key : OrderKey Layout) :
    key.layout.redact = (key.map Layout.redact).layout := by
  simp [layout, map]

theorem redact_clauseLayout (intro : String) (keys : List (OrderKey Layout)) :
    (clauseLayout intro keys).redact =
      clauseLayout intro (keys.map (OrderKey.map Layout.redact)) := by
  cases keys with
  | nil => simp [clauseLayout]
  | cons key rest => simp [clauseLayout, redact_layout, Function.comp_def]

end OrderKey

theorem Keep.redact_layout (keep : Keep Layout) :
    keep.layout.redact = (keep.map Layout.redact).layout := by
  have hr : (keep.map Layout.redact).rank = keep.rank := rfl
  simp only [layout, hr, Layout.redact_append, OrderKey.redact_clauseLayout]
  simp [map]

/-- The layout of a frame holds no query that is left to the renderer. -/
theorem Frame.redact_layout (frame : Frame Layout) : frame.layout.redact = frame.layout := by
  have hbound : ∀ bound : FrameBound Layout, bound.layout.redact = bound.layout := by
    intro bound
    cases bound <;> simp [FrameBound.layout]
  obtain ⟨unit, extent⟩ := frame
  cases extent <;> simp [layout, FrameExtent.layout, hbound]

theorem When.redact_layout (branch : When Layout) :
    branch.layout.redact = (branch.map Layout.redact).layout := by
  simp [layout, map]

theorem Case.redact_layout (c : Case Layout) :
    c.layout.redact = (c.map Layout.redact).layout := by
  simp [layout, map, When.redact_layout, Function.comp_def]

namespace Call

theorem redact_argumentsLayout (call : Call Layout) :
    call.argumentsLayout.redact = (call.map Layout.redact).argumentsLayout := by
  unfold argumentsLayout
  cases ha : call.arguments <;> cases hq : call.quantifier <;>
    simp [map, ha, hq, Arguments.redact_layout]

theorem redact_layout (call : Call Layout) :
    call.layout.redact = (call.map Layout.redact).layout := by
  have ha := redact_argumentsLayout call
  simp only [layout, Layout.redact_append, Layout.redact_onlyIf, Layout.redact_ofOption, ha]
  simp [map, Keep.redact_layout]

end Call

namespace Analytic

theorem redact_argumentsLayout (a : Analytic Layout) :
    a.argumentsLayout.redact = (a.redact id Layout.redact).argumentsLayout := by
  unfold argumentsLayout
  cases ha : a.argument <;> simp [redact, map, ha]

theorem redact_partitionLayout (a : Analytic Layout) :
    a.partitionLayout.redact = (a.redact id Layout.redact).partitionLayout := by
  unfold partitionLayout
  cases hp : a.partitionBy <;> simp [redact, map, hp]

theorem redact_orderLayout (a : Analytic Layout) :
    a.orderLayout.redact = (a.redact id Layout.redact).orderLayout := by
  unfold orderLayout
  cases ho : a.orderBy <;>
    simp [redact, map, ho, OrderKey.redact_clauseLayout, Frame.redact_layout, Frame.map_id]

theorem redact_layout (a : Analytic Layout) :
    a.layout.redact = (a.redact id Layout.redact).layout := by
  simp only [layout, Layout.redact_append, redact_argumentsLayout, redact_partitionLayout,
    redact_orderLayout, Layout.redact_onlyIf, Layout.redact_ofOption]
  simp [redact, map, Keep.redact_layout]

end Analytic

theorem GroupConcat.redact_layout (g : GroupConcat Layout) :
    g.layout.redact = (g.map Layout.redact).layout := by
  simp [layout, map, Arguments.redact_layout, OrderKey.redact_clauseLayout,
    Layout.redact_of_marks_eq_nil]

theorem CommonTable.redact_layout (table : CommonTable Layout) :
    table.layout.redact = (table.redact : CommonTable Layout).layout := by
  rw [layout, Layout.redact]
  rfl

namespace SubQuery

theorem redact_withLayout (sub : SubQuery Layout) :
    sub.withLayout.redact = (sub.redact : SubQuery Layout).withLayout := by
  unfold withLayout
  cases ht : sub.commonTables <;>
    simp [redact, ht, CommonTable.redact_layout, Function.comp_def]

theorem redact_layout (sub : SubQuery Layout) :
    sub.layout.redact = (sub.redact : SubQuery Layout).layout := by
  have hquery : (Layout.query sub.query.body).redact = .query Query.blank.body := by
    rw [Layout.redact]
  simp only [layout, Layout.redact_append, redact_withLayout, hquery]
  simp [redact]

end SubQuery

theorem Items.redact_layout (items : Items Layout) :
    items.layout.redact = (items.redact Layout.redact).layout := by
  cases items with
  | list values => exact Arguments.redact_layout true values
  | rows lists => simp [layout, redact, map, Arguments.redact_layout, Function.comp_def]
  | query sub => exact SubQuery.redact_layout sub

theorem Member.redact_layout (join : OuterJoin) (member : Member Layout) :
    (member.layout join).redact = (member.redact Layout.redact).layout join := by
  cases member with
  | expr e => simp [layout, redact]
  | items is => exact Items.redact_layout is

/-! ### Expressions -/

theorem Node.redact_layout (n : Node Layout) :
    n.layout.redact = (n.redact id Layout.redact).layout := by
  cases n with
  | cast e type keyword =>
    cases keyword <;> simp [layout, redact, Layout.redact_of_marks_eq_nil]
  | _ =>
    simp [layout, redact, map, infixed, Arguments.redact_layout, Case.redact_layout,
      Call.redact_layout, Analytic.redact_layout, GroupConcat.redact_layout,
      SubQuery.redact_layout, Items.redact_layout, Member.redact_layout,
      Layout.redact_of_marks_eq_nil]

/-- The layout of a redacted tree is the redacted layout. -/
theorem Expr.layout_redacted (e : Expr) : e.redacted.layout = e.layout.redact := by
  -- Both sides obey one rule : lay out the redacted node, isolated parts as they are.
  let rule : Node (Expr × Layout) → Layout := fun n =>
    (n.redact (Expr.layout ∘ Prod.fst) Prod.snd).layout
  have htree : ∀ n : Node Expr, (Expr.node n).redacted.layout =
      rule (n.map fun e => (e, e.redacted.layout)) := by
    intro n
    rw [redacted_node, layout_node, Node.map_redact]
    simp only [rule, Node.redact_map]
    rfl
  have hlayout : ∀ n : Node Expr, (Expr.node n).layout.redact =
      rule (n.map fun e => (e, e.layout.redact)) := by
    intro n
    rw [layout_node, Node.redact_layout, Node.redact_map]
    simp only [rule, Node.redact_map]
    rfl
  calc e.redacted.layout
    _ = para rule e := eq_para _ (f := fun e => e.redacted.layout) htree e
    _ = e.layout.redact := (eq_para _ (f := fun e => e.layout.redact) hlayout e).symm

/-! ## Rendering with placeholders -/

/-- The placeholder renderer writes the same for a layout and for what its redaction leaves. -/
theorem Layout.text_steps_redact (l : Layout) :
    Steps.text (l.redact.steps (some .placeholder)) = Steps.text (l.steps (some .placeholder)) := by
  fun_induction Layout.redact l with
  | case1 => rfl
  | case2 t => rfl
  | case3 t => rfl
  | case4 first second ihfirst ihsecond =>
    rw [Layout.steps, Layout.steps, Steps.text_append, Steps.text_append, ihfirst, ihsecond]
  | case5 inner => rfl
  | case6 name columns body =>
    rw [Layout.steps, Layout.steps]
    rfl
  | case7 body =>
    rw [Layout.steps, Layout.steps]
    rfl

/-- With placeholders nothing fails. -/
theorem Step.AllowedBy.calm_of_placeholder {step : Step}
    (h : step.AllowedBy (some .placeholder)) : step.Calm := by
  cases step with
  | spend =>
    obtain ⟨budget, hb⟩ := h
    cases hb
  | fail fault => cases fault <;> cases h
  | _ => trivial

namespace Session

/-- What a rendering with placeholders does to the session. -/
theorem render_placeholder (text : String) (budget : Nat) (e : Expr) :
    (render ⟨some .placeholder, text, budget⟩ (.expr e)).2.fault = none ∧
      (render ⟨some .placeholder, text, budget⟩ (.expr e)).1 =
        ⟨some .placeholder, text ++ Steps.text (e.layout.steps (some .placeholder)), budget⟩ := by
  have hcalm : ∀ step ∈ e.layout.steps (some .placeholder), step.Calm := fun step hs =>
    (e.layout.allowedBy_of_mem_steps _ step hs).calm_of_placeholder
  have hrun := (Progress.start text budget).run_of_calm _ hcalm
  simp only [render, Fragment.steps, hrun]
  exact ⟨trivial, rfl⟩

/-- Expressions that are equal once all is blanked out that is left to the query renderer. With
placeholders both are rendered without failure, behind every text, and to the same text. -/
theorem render_of_redacted_eq {e₁ e₂ : Expr} (h : e₁.redacted = e₂.redacted) (text : String)
    (budget : Nat) :
    let s : Session := ⟨some .placeholder, text, budget⟩
    (s.render (.expr e₁)).2.fault = none ∧ (s.render (.expr e₂)).2.fault = none ∧
      (s.render (.expr e₁)).1 = (s.render (.expr e₂)).1 := by
  intro s
  obtain ⟨hfault₁, hsession₁⟩ := render_placeholder text budget e₁
  obtain ⟨hfault₂, hsession₂⟩ := render_placeholder text budget e₂
  have hwritten : Steps.text (e₁.layout.steps (some .placeholder)) =
      Steps.text (e₂.layout.steps (some .placeholder)) := by
    rw [← Layout.text_steps_redact e₁.layout, ← Layout.text_steps_redact e₂.layout,
      ← Expr.layout_redacted, ← Expr.layout_redacted, h]
  refine ⟨hfault₁, hfault₂, ?_⟩
  rw [hsession₁, hsession₂, hwritten]

/-- Two membership tests that differ in a query, a common table and its columns. The query in the
cast is isolated; it is the same in both, and it is written out. -/
theorem render_of_redacted_eq_membership :
    let query := Query.plain (.ofItems [.ofExpr (.column "a")])
    let union := Query.compound .union true query (.plain (.ofItems [.allColumns]))
    let member := (Expr.node (.subQuery (.ofQuery query))).cast .integer
    let test := fun (q : Query Expr) (columns : List String) =>
      Expr.node (.membership (.expr member) (.query ⟨q, [⟨"t", columns, q⟩], true⟩) true .absent)
    let s : Session := ⟨some .placeholder, "é OR ", 0⟩
    (test query []).redacted = (test union ["c"]).redacted ∧
      (test query []).sql ≠ (test union ["c"]).sql ∧
      (s.render (.expr (test query []))).2.fault = none ∧
      (s.render (.expr (test union ["c"]))).2.fault = none ∧
      (s.render (.expr (test union ["c"]))).1 =
        ⟨some .placeholder,
          "é OR CAST((SELECT a) AS INTEGER) NOT IN (WITH t <query>)", 0⟩ := by
  intro query union member test s
  have h : (test query []).redacted = (test union ["c"]).redacted := rfl
  obtain ⟨hquery, hunion, hsame⟩ := render_of_redacted_eq h "é OR " 0
  have hs : s = ⟨some .placeholder, "é OR ", 0⟩ := rfl
  rw [hs, ← hsame]
  refine ⟨h, by decide +kernel, hquery, hunion, ?_⟩
  decide +kernel

end Session

end SqlText
