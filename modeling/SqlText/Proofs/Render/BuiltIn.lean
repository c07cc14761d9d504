import SqlText.Expr.Build
import SqlText.Proofs.Layout.Text
import SqlText.Proofs.Render.Runs
import SqlText.Session

/-!
# The built-in rendering

A property of steps that text has and that hand-offs preserve holds of every step of every layout
(`Step.Pervasive`). In particular, which steps a layout can bring about depends on the renderer
alone (`Step.AllowedBy`). Without a renderer, or under one that writes queries in the built-in way,
there are only calm steps, and they write the text of the layout (`Layout.text_steps`). Together
with the text of a layout this gives the main statement, `Session.render_builtIn` : such a rendering
never fails and appends to whatever is there exactly the SQL text of the fragment.
-/

namespace SqlText

/-! ## What holds of all steps -/

/-- A property of steps, which may depend on the renderer, that text has, that passes from isolated
parts to all renderers, and that a hand-off has if the query has it. -/
structure Step.Pervasive (P : Option QueryRenderer → Step → Prop) : Prop where
  write : ∀ renderer text, P renderer (.write text)
  isolated : ∀ renderer step, P none step → P renderer step
  handOver : ∀ renderer handoff builtIn outlined, (∀ step ∈ builtIn (), P renderer step) →
    (∀ step ∈ outlined (), P renderer step) →
    ∀ step ∈ SqlText.handOver renderer handoff builtIn outlined, P renderer step

section Pervasive

variable {P : Option QueryRenderer → Step → Prop} (hP : Step.Pervasive P)

include hP

mutual

/-- A pervasive property holds of all steps of a layout. -/
theorem Layout.forall_mem_steps (renderer : Option QueryRenderer) :
    ∀ (l : Layout), ∀ step ∈ l.steps renderer, P renderer step
  | .empty => by simp [Layout.steps]
  | .token t => by simp [Layout.steps, hP.write]
  | .verbatim t => by simp [Layout.steps, hP.write]
  | .append first second => by
    rw [Layout.steps]
    exact List.forall_mem_append.2
      ⟨Layout.forall_mem_steps renderer first, Layout.forall_mem_steps renderer second⟩
  | .isolated inner => by
    rw [Layout.steps]
    exact fun step hs => hP.isolated _ _ (Layout.forall_mem_steps none inner step hs)
  | .commonTable name columns body => by
    rw [Layout.steps]
    have hb := Body.forall_mem_builtIn renderer body
    have ho := Body.forall_mem_outlined renderer body
    refine hP.handOver _ _ _ _ ?_ ?_
    · simp only [List.forall_mem_append, List.forall_mem_cons, hP.write, true_and]
      exact ⟨hb, by simp⟩
    · simp only [List.forall_mem_cons, hP.write, true_and]
      exact ho
  | .query body => by
    rw [Layout.steps]
    exact hP.handOver _ _ _ _ (Body.forall_mem_builtIn renderer body)
      (Body.forall_mem_outlined renderer body)

theorem Body.forall_mem_builtIn (renderer : Option QueryRenderer) :
    ∀ (body : Body), ∀ step ∈ body.builtIn renderer, P renderer step
  | .select before condition after => by
    simp only [Body.builtIn, List.forall_mem_append, List.forall_mem_cons, hP.write, true_and]
    exact ⟨⟨Layout.forall_mem_steps renderer before, Layout.forall_mem_steps renderer condition⟩,
      Layout.forall_mem_steps renderer after⟩
  | .compound left joiner right => by
    simp only [Body.builtIn, List.forall_mem_append, List.forall_mem_cons, hP.write, true_and]
    exact ⟨Body.forall_mem_builtIn renderer left, Body.forall_mem_builtIn renderer right⟩

theorem Body.forall_mem_outlined (renderer : Option QueryRenderer) :
    ∀ (body : Body), ∀ step ∈ body.outlined renderer, P renderer step
  | .select before condition after => by
    simp only [Body.outlined, List.forall_mem_append, List.forall_mem_cons, hP.write, true_and]
    exact ⟨Layout.forall_mem_steps renderer condition, by simp⟩
  | .compound left joiner right => by
    simp only [Body.outlined, List.forall_mem_append, List.forall_mem_cons, hP.write, true_and]
    exact ⟨Body.forall_mem_outlined renderer left, Body.forall_mem_outlined renderer right⟩

end

end Pervasive

/-! ## The steps that a renderer brings about -/

/-- Whether a renderer can bring about a step. -/
def Step.AllowedBy (renderer : Option QueryRenderer) : Step → Prop
  | .write _ => True
  | .announce _ => True
  | .call _ => renderer ≠ none
  | .spend => ∃ budget, renderer = some (.limited budget)
  | .fail .unsupportedQuery => renderer = some .failing
  | .fail .unsupportedCommonTable => renderer = some .failing
  | .fail .unformattable => renderer = some .unformattable
  | .fail (.budgetExhausted _) => False

/-- What is possible without a renderer is possible under every renderer. -/
theorem Step.AllowedBy.of_none {renderer : Option QueryRenderer} {step : Step}
    (h : step.AllowedBy none) : step.AllowedBy renderer := by
  cases step with
  | write t => trivial
  | announce event => trivial
  | call handoff => exact (h rfl).elim
  | spend =>
    obtain ⟨budget, hb⟩ := h
    cases hb
  | fail fault => cases fault <;> cases h

theorem allowedBy_of_mem_handOver {renderer : Option QueryRenderer} {handoff : Handoff}
    {builtIn outlined : Unit → List Step} (hb : ∀ step ∈ builtIn (), step.AllowedBy renderer)
    (ho : ∀ step ∈ outlined (), step.AllowedBy renderer) :
    ∀ step ∈ handOver renderer handoff builtIn outlined, step.AllowedBy renderer := by
  cases renderer with
  | none => simpa [handOver, Step.AllowedBy] using hb
  | some r =>
    cases r <;> cases handoff <;>
      simp_all [handOver, QueryRenderer.answer, Step.AllowedBy]

theorem Step.pervasive_allowedBy : Step.Pervasive Step.AllowedBy where
  write _ _ := trivial
  isolated _ _ h := h.of_none
  handOver _ _ _ _ hb ho := allowedBy_of_mem_handOver hb ho

theorem Layout.allowedBy_of_mem_steps (renderer : Option QueryRenderer) (l : Layout) :
    ∀ step ∈ l.steps renderer, step.AllowedBy renderer :=
  l.forall_mem_steps Step.pervasive_allowedBy renderer

theorem Body.allowedBy_of_mem_builtIn (renderer : Option QueryRenderer) (body : Body) :
    ∀ step ∈ body.builtIn renderer, step.AllowedBy renderer :=
  body.forall_mem_builtIn Step.pervasive_allowedBy renderer

theorem Fragment.allowedBy_of_mem_steps (renderer : Option QueryRenderer) (fragment : Fragment) :
    ∀ step ∈ fragment.steps renderer, step.AllowedBy renderer := by
  cases fragment with
  | commonTable table =>
    simp only [Fragment.steps, List.forall_mem_append, List.forall_mem_cons]
    exact ⟨⟨trivial, trivial, trivial, Body.allowedBy_of_mem_builtIn renderer _⟩, trivial, by simp⟩
  | query q => exact Body.allowedBy_of_mem_builtIn renderer _
  | _ => exact Layout.allowedBy_of_mem_steps renderer _

/-- No rendering names an offset of its own. -/
theorem Step.AllowedBy.placeless {renderer : Option QueryRenderer} {step : Step}
    (h : step.AllowedBy renderer) : step.Placeless := by
  cases step with
  | fail fault => cases fault <;> trivial
  | _ => trivial

/-! ## Renderers that write in the built-in way -/

/-- Whether queries are written in the built-in way, without counting calls. -/
def IsBuiltIn (renderer : Option QueryRenderer) : Prop :=
  renderer = none ∨ renderer = some .plain ∨ renderer = some .recording

theorem IsBuiltIn.none : IsBuiltIn none :=
  .inl rfl

theorem IsBuiltIn.recording : IsBuiltIn (some .recording) :=
  .inr (.inr rfl)

theorem Step.AllowedBy.calm {renderer : Option QueryRenderer} (hr : IsBuiltIn renderer)
    {step : Step} (h : step.AllowedBy renderer) : step.Calm := by
  cases step with
  | spend =>
    obtain ⟨budget, rfl⟩ := h
    simp [IsBuiltIn] at hr
  | fail fault => cases fault <;> simp_all [Step.AllowedBy, IsBuiltIn]
  | _ => trivial

/-- A hand-off in the built-in way writes what the built-in steps write. -/
theorem text_handOver {renderer : Option QueryRenderer} (hr : IsBuiltIn renderer)
    (handoff : Handoff) (builtIn outlined : Unit → List Step) :
    Steps.text (handOver renderer handoff builtIn outlined) = Steps.text (builtIn ()) := by
  rcases hr with rfl | rfl | rfl <;> rfl

mutual

/-- In the built-in way a layout's steps write its text. -/
theorem Layout.text_steps {renderer : Option QueryRenderer} (hr : IsBuiltIn renderer) :
    ∀ l : Layout, Steps.text (l.steps renderer) = l.text
  | .empty => by simp [Layout.steps, Steps.text]
  | .token t => by simp [Layout.steps, Steps.text]
  | .verbatim t => by simp [Layout.steps, Steps.text]
  | .append first second => by
    simp [Layout.steps, Layout.text_steps hr first, Layout.text_steps hr second]
  | .isolated inner => by
    rw [Layout.steps, Layout.text]
    exact Layout.text_steps .none inner
  | .commonTable name columns body => by
    simp [Layout.steps, text_handOver hr, Steps.text, Body.text_builtIn hr body,
      String.append_assoc]
  | .query body => by
    rw [Layout.steps, text_handOver hr, Layout.text, Body.text_builtIn hr body]

theorem Body.text_builtIn {renderer : Option QueryRenderer} (hr : IsBuiltIn renderer) :
    ∀ body : Body, Steps.text (body.builtIn renderer) = body.text
  | .select before condition after => by
    simp [Body.builtIn, Body.text, Steps.text, Layout.text_steps hr before,
      Layout.text_steps hr condition, Layout.text_steps hr after, String.append_assoc]
  | .compound left joiner right => by
    simp [Body.builtIn, Body.text, Steps.text, Body.text_builtIn hr left,
      Body.text_builtIn hr right, String.append_assoc]

end

/-! ## Fragments -/

namespace Fragment

/-- The SQL text of a fragment. -/
def sql : Fragment → String
  | expr e => e.sql
  | items is => is.sql
  | list arguments brackets => Arguments.text brackets (arguments.map Expr.sql)
  | orderKey key => key.sql
  | query q => q.sql
  | commonTable table => table.sql

/-- In the built-in way a fragment's steps write its SQL text. -/
theorem text_steps {renderer : Option QueryRenderer} (hr : IsBuiltIn renderer)
    (fragment : Fragment) : Steps.text (fragment.steps renderer) = fragment.sql := by
  have hlayout : Layout.text ∘ Expr.layout = Expr.sql := funext Expr.text_layout
  cases fragment with
  | expr e => rw [steps, sql, Layout.text_steps hr, Expr.text_layout]
  | items is =>
    rw [steps, sql, Layout.text_steps hr, Items.text_layout, Items.map_map, hlayout, Items.sql]
  | list arguments brackets =>
    rw [steps, sql, Layout.text_steps hr, Arguments.text_layout, List.map_map, hlayout]
  | orderKey key =>
    rw [steps, sql, Layout.text_steps hr, OrderKey.text_layout, OrderKey.map_map, hlayout,
      OrderKey.sql]
  | query q =>
    rw [steps, sql, Body.text_builtIn hr, Query.text_body, Query.map_map, hlayout, Query.sql]
  | commonTable table =>
    simp [steps, sql, CommonTable.sql, CommonTable.text, CommonTable.map, Steps.text,
      Body.text_builtIn hr, Query.text_body, Query.map_map, hlayout, String.append_assoc]

end Fragment

namespace Session

/-- The whole outcome of a rendering in the built-in way. -/
theorem render_of_isBuiltIn (s : Session) (hr : IsBuiltIn s.renderer) (fragment : Fragment) :
    s.render fragment =
      ({ s with buffer := s.buffer ++ fragment.sql },
        ⟨none, Steps.calls s.buffer.utf8ByteSize (fragment.steps s.renderer),
          Steps.events (fragment.steps s.renderer), none⟩) := by
  have hcalm : ∀ step ∈ fragment.steps s.renderer, step.Calm := fun step hs =>
    (fragment.allowedBy_of_mem_steps s.renderer step hs).calm hr
  have hrun := (Progress.start s.buffer s.budget).run_of_calm _ hcalm
  rw [Fragment.text_steps hr] at hrun
  simp only [render, hrun]
  simp [Progress.start, Progress.length]

/-- Without a renderer, or with the plain one, a rendering succeeds from every text, appends exactly
the SQL text of the fragment, and changes nothing else of the session. -/
theorem render_builtIn (s : Session) (h : s.renderer = none ∨ s.renderer = some .plain)
    (fragment : Fragment) :
    (s.render fragment).2.fault = none ∧
      (s.render fragment).1 = { s with buffer := s.buffer ++ fragment.sql } := by
  have hr : IsBuiltIn s.renderer := by
    rcases h with h | h <;> simp [IsBuiltIn, h]
  rw [render_of_isBuiltIn s hr fragment]
  exact ⟨rfl, rfl⟩

/-- A membership test with a common table, a set operator and a cast, behind a text. -/
theorem render_builtIn_membership :
    let expr := Expr.node (.membership (.expr (.column "é"))
      (.query ⟨.compound .union true (.plain (.ofItems [.allColumns]))
        (.plain (.ofItems [.ofExpr (.node (.cast (.column "a") .integer true))])),
        [⟨"t", ["x"], .plain (.ofItems [.ofExpr (.column "b")])⟩], true⟩) true .right)
    let s : Session := ⟨some .plain, "x AND ", 0⟩
    (s.renderer = none ∨ s.renderer = some .plain) ∧ (s.render (.expr expr)).2.fault = none ∧
      (s.render (.expr expr)).1.buffer =
        "x AND é(+) NOT IN (WITH t (x) AS (SELECT b) " ++
          "SELECT * UNION ALL SELECT CAST(a AS INTEGER))" := by
  intro expr s
  have hs : s.renderer = none ∨ s.renderer = some .plain := .inr rfl
  obtain ⟨hfault, hsession⟩ := render_builtIn s hs (.expr expr)
  refine ⟨hs, hfault, ?_⟩
  rw [hsession]
  decide +kernel

end Session

end SqlText
