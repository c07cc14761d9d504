import SqlText.Proofs.Render.BuiltIn

/-!
# Renderings on a budget

A limited renderer writes in the built-in way until its budget is used up. Its steps are those of
the recording renderer with every call paid for (`Layout.steps_limited`), so a limited rendering
follows the recorded one up to the call it cannot pay for. `Expr.renderedBy_limited` is the main
statement : with a budget for all recorded calls the limited rendering succeeds with the same text,
and otherwise it fails at the first recorded call beyond the budget, and the text is cut off at that
call's offset.
-/

namespace SqlText

/-- An expression rendered into an empty text. -/
def Expr.renderedBy (e : Expr) (renderer : Option QueryRenderer) : Session × Report :=
  (Session.start.configure renderer).render (.expr e)

/-! ## Limited steps are rationed steps -/

/-- Without a renderer there are no calls to pay for. -/
theorem Steps.rationed_of_none {steps : List Step} (h : ∀ step ∈ steps, step.AllowedBy none) :
    steps.flatMap Step.rationed = steps := by
  induction steps with
  | nil => rfl
  | cons step rest ih =>
    obtain ⟨hstep, hrest⟩ := List.forall_mem_cons.1 h
    rw [List.flatMap_cons, ih hrest]
    cases step with
    | call handoff => exact (hstep rfl).elim
    | _ => rfl

/-- A hand-off to the limited renderer is the recorded hand-off with its call paid for. -/
theorem handOver_limited (budget : Nat) (handoff : Handoff) {limited recorded : Unit → List Step}
    {outlined outlined' : Unit → List Step}
    (h : limited () = (recorded ()).flatMap Step.rationed) :
    handOver (some (.limited budget)) handoff limited outlined =
      (handOver (some .recording) handoff recorded outlined').flatMap Step.rationed := by
  simp [handOver, QueryRenderer.answer, Step.rationed, h]

mutual

theorem Layout.steps_limited (budget : Nat) : ∀ l : Layout,
    l.steps (some (.limited budget)) = (l.steps (some .recording)).flatMap Step.rationed
  | .empty => by simp [Layout.steps]
  | .token t => by simp [Layout.steps, Step.rationed]
  | .verbatim t => by simp [Layout.steps, Step.rationed]
  | .append first second => by
    simp only [Layout.steps, List.flatMap_append, Layout.steps_limited budget first,
      Layout.steps_limited budget second]
  | .isolated inner => by
    simp only [Layout.steps]
    exact (Steps.rationed_of_none (Layout.allowedBy_of_mem_steps none inner)).symm
  | .commonTable name columns body => by
    simp only [Layout.steps]
    refine handOver_limited budget _ ?_
    simp [Step.rationed, Body.builtIn_limited budget body]
  | .query body => by
    simp only [Layout.steps]
    exact handOver_limited budget _ (Body.builtIn_limited budget body)

theorem Body.builtIn_limited (budget : Nat) : ∀ body : Body,
    body.builtIn (some (.limited budget)) =
      (body.builtIn (some .recording)).flatMap Step.rationed
  | .select before condition after => by
    simp [Body.builtIn, Step.rationed, Layout.steps_limited budget before,
      Layout.steps_limited budget condition, Layout.steps_limited budget after]
  | .compound left joiner right => by
    simp [Body.builtIn, Step.rationed, Body.builtIn_limited budget left,
      Body.builtIn_limited budget right]

end

/-! ## Where a limited rendering ends -/

namespace Expr

/-- The whole outcome of a rendering into an empty text in the built-in way. -/
theorem renderedBy_of_isBuiltIn {renderer : Option QueryRenderer} (hr : IsBuiltIn renderer)
    (e : Expr) :
    e.renderedBy renderer =
      (⟨renderer, e.sql, 0⟩,
        ⟨none, Steps.calls 0 (e.layout.steps renderer), Steps.events (e.layout.steps renderer),
          none⟩) := by
  have hconfigure : Session.start.configure renderer = ⟨renderer, "", 0⟩ := by
    rcases hr with rfl | rfl | rfl <;> rfl
  rw [renderedBy, hconfigure, Session.render_of_isBuiltIn _ hr]
  simp [Fragment.sql, Fragment.steps]

/-- The steps that the recording renderer takes for an expression. -/
def recordedSteps (e : Expr) : List Step :=
  e.layout.steps (some .recording)

/-- What is recorded of a rendering into an empty text. -/
theorem renderedBy_recording (e : Expr) :
    e.renderedBy (some .recording) =
      (⟨some .recording, e.sql, 0⟩,
        ⟨none, Steps.calls 0 e.recordedSteps, Steps.events e.recordedSteps, none⟩) :=
  renderedBy_of_isBuiltIn .recording e

theorem calm_of_mem_recordedSteps (e : Expr) : ∀ step ∈ e.recordedSteps, step.Calm :=
  fun step hs => (e.layout.allowedBy_of_mem_steps _ step hs).calm .recording

theorem text_recordedSteps (e : Expr) : Steps.text e.recordedSteps = e.sql := by
  rw [recordedSteps, Layout.text_steps .recording, text_layout]

/-- A limited rendering is a run of the recorded steps with their calls paid for. -/
theorem renderedBy_limited_of_run (e : Expr) (n : Nat) {p : Progress} {fault : Option Fault}
    (h : (Progress.start "" n).run (e.recordedSteps.flatMap Step.rationed) = (p, fault)) :
    e.renderedBy (some (.limited n)) =
      (⟨some (.limited n), p.buffer, p.budget⟩, ⟨fault, p.calls, p.events, none⟩) := by
  rw [recordedSteps, ← Layout.steps_limited n e.layout] at h
  simp only [renderedBy, Session.render, Session.configure, Session.start, Fragment.steps, h]

/-- The limited rendering when all recorded calls are paid for. -/
theorem renderedBy_limited_of_le (e : Expr) {n : Nat}
    (h : (Steps.calls 0 e.recordedSteps).length ≤ n) :
    e.renderedBy (some (.limited n)) =
      (⟨some (.limited n), e.sql, n - (Steps.calls 0 e.recordedSteps).length⟩,
        ⟨none, Steps.calls 0 e.recordedSteps, Steps.events e.recordedSteps, none⟩) := by
  have hrun := (Progress.start "" n).run_rationed e.recordedSteps e.calm_of_mem_recordedSteps h
  rw [renderedBy_limited_of_run e n hrun, text_recordedSteps]
  simp [Progress.start, Progress.length]

/-- The limited rendering when recorded call number `n` cannot be paid for : it takes the recorded
steps before that call, and the call's offset is where they end. -/
theorem renderedBy_limited_of_getElem? (e : Expr) {n : Nat} {record : CallRecord}
    (h : (Steps.calls 0 e.recordedSteps)[n]? = some record) :
    ∃ before after, e.recordedSteps = before ++ .call record.handoff :: after ∧
      record.offset = (Steps.text before).utf8ByteSize ∧
      e.renderedBy (some (.limited n)) =
        (⟨some (.limited n), Steps.text before, 0⟩,
          ⟨some (.budgetExhausted record.offset),
            Steps.calls 0 (before ++ [.call record.handoff]), Steps.events before, none⟩) := by
  obtain ⟨before, handoff, after, hsplit, hcount, rfl⟩ := Steps.exists_split_of_getElem? h
  have hcalm : ∀ step ∈ before, step.Calm := fun step hs =>
    e.calm_of_mem_recordedSteps step (by rw [hsplit]; exact List.mem_append_left _ hs)
  have hrun := (Progress.start "" n).run_rationed_of_split before handoff after hcalm hcount
  rw [← hsplit] at hrun
  refine ⟨before, after, hsplit, by simp, ?_⟩
  rw [renderedBy_limited_of_run e n hrun]
  simp [Progress.start, Progress.length]

/-- Let `n` calls be paid for. If no more are recorded, the limited rendering succeeds with the
recorded text. If there are more, it fails at recorded call number `n`, counted from zero, and the
text holds just the bytes up to the offset of that call. -/
theorem renderedBy_limited (e : Expr) (n : Nat) :
    let full := e.renderedBy (some .recording)
    let cut := e.renderedBy (some (.limited n))
    let records := full.1.recorded full.2
    (records.length ≤ n → cut.2.fault = none ∧ cut.1.buffer = full.1.buffer) ∧
      ∀ h : n < records.length,
        cut.2.fault = some (.budgetExhausted records[n].offset) ∧
          cut.2.fault.bind Fault.reason? =
            some ("budget exhausted at " ++ toString records[n].offset) ∧
          cut.1.buffer.toByteArray = full.1.buffer.toByteArray.extract 0 records[n].offset := by
  intro full cut records
  have hfull : full.1.buffer = e.sql := by simp only [full, renderedBy_recording]
  have hrecords : records = Steps.calls 0 e.recordedSteps := by
    simp [records, full, renderedBy_recording, Session.recorded]
  clear_value records
  subst hrecords
  constructor
  · intro hle
    have hcut := renderedBy_limited_of_le e hle
    exact ⟨by rw [show cut = _ from hcut], by rw [show cut = _ from hcut, hfull]⟩
  · intro hlt
    obtain ⟨before, after, hsplit, hoffset, hcut⟩ :=
      renderedBy_limited_of_getElem? e (List.getElem?_eq_getElem hlt)
    have htext : e.sql = Steps.text before ++ Steps.text after := by
      rw [← text_recordedSteps, hsplit, Steps.text_append]
      rfl
    rw [show cut = _ from hcut, hfull, htext, String.toByteArray_append, hoffset]
    exact ⟨rfl, rfl, (ByteArray.extract_append_eq_left rfl).symm⟩

end Expr

end SqlText
