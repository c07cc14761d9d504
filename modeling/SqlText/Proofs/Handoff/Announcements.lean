import SqlText.Proofs.Handoff.Isolation

/-!
# Announcements

Every hand-off is announced before it takes place, also in the parts that are isolated from the
configured renderer. What the steps of a rendering remark besides writing is therefore said by a
list of notices, one for each query or common table that is written : it is announced, and it is
called for unless it is isolated (`Layout.remarks_steps`).

`Expr.events_announced` is the main statement. The events of a rendering in the built-in way are
those of `Expr.announced`, whatever the renderer, and what is recorded is the part of them that is
not isolated. A limited rendering that fails has announced everything up to the hand-off that was
refused. Rendering to a text of its own adds one event at the end of a success.
-/

namespace SqlText

/-! ## Remarks -/

namespace Steps

/-- The steps that do not write. -/
def remarks : List Step → List Step
  | [] => []
  | .write _ :: rest => remarks rest
  | step :: rest => step :: remarks rest

/-- What is called for, in order. -/
def handoffs : List Step → List Handoff
  | [] => []
  | .call handoff :: rest => handoff :: handoffs rest
  | _ :: rest => handoffs rest

@[simp] theorem remarks_append (xs ys : List Step) :
    remarks (xs ++ ys) = remarks xs ++ remarks ys := by
  induction xs with
  | nil => rfl
  | cons step rest ih => cases step <;> simp [remarks, ih]

@[simp] theorem events_append (xs ys : List Step) : events (xs ++ ys) = events xs ++ events ys := by
  induction xs with
  | nil => rfl
  | cons step rest ih => cases step <;> simp [events, ih]

@[simp] theorem handoffs_append (xs ys : List Step) :
    handoffs (xs ++ ys) = handoffs xs ++ handoffs ys := by
  induction xs with
  | nil => rfl
  | cons step rest ih => cases step <;> simp [handoffs, ih]

/-- Events are remarked. -/
theorem events_remarks (steps : List Step) : events (remarks steps) = events steps := by
  induction steps with
  | nil => rfl
  | cons step rest ih => cases step <;> simp [remarks, events, ih]

/-- Calls are remarked, up to their offsets. -/
theorem handoffs_remarks (steps : List Step) (offset : Nat) :
    handoffs (remarks steps) = (calls offset steps).map CallRecord.handoff := by
  induction steps generalizing offset with
  | nil => rfl
  | cons step rest ih =>
    cases step with
    | write t => exact ih _
    | call handoff => simp [remarks, handoffs, calls, ih offset]
    | _ => exact ih offset

end Steps

/-! ## Notices -/

/-- That something is about to be handed over, and whether in an isolated part. -/
structure Notice where
  handoff : Handoff
  isolated : Bool

namespace Notice

/-- How a notice is announced. -/
def event (notice : Notice) : Event :=
  .handingOver notice.handoff

/-- What is remarked of a notice : the announcement, and the call if there is one. -/
def remarks (renderer : Option QueryRenderer) (notice : Notice) : List Step :=
  .announce notice.event ::
    if notice.isolated || renderer.isNone then [] else [.call notice.handoff]

/-- The notices that are called for. -/
def calledFor (notices : List Notice) : List Handoff :=
  (notices.filter fun notice => !notice.isolated).map handoff

theorem events_remarks (renderer : Option QueryRenderer) (notice : Notice) :
    Steps.events (notice.remarks renderer) = [notice.event] := by
  rw [remarks, Steps.events]
  split <;> rfl

theorem events_flatMap_remarks (renderer : Option QueryRenderer) (notices : List Notice) :
    Steps.events (notices.flatMap (remarks renderer)) = notices.map event := by
  induction notices with
  | nil => rfl
  | cons notice rest ih =>
    rw [List.flatMap_cons, Steps.events_append, events_remarks, ih, List.map_cons]
    rfl

theorem handoffs_flatMap_remarks (r : QueryRenderer) (notices : List Notice) :
    Steps.handoffs (notices.flatMap (remarks (some r))) = calledFor notices := by
  induction notices with
  | nil => rfl
  | cons notice rest ih =>
    rw [List.flatMap_cons, Steps.handoffs_append, ih]
    cases h : notice.isolated <;> simp [remarks, Steps.handoffs, calledFor, h]

/-- Where a call is remarked, the notice of it has just been announced. -/
theorem exists_split_of_call {r : QueryRenderer} {notices : List Notice} {xs ys : List Step}
    {handoff : Handoff} (h : notices.flatMap (remarks (some r)) = xs ++ .call handoff :: ys) :
    ∃ before refused after, notices = before ++ refused :: after ∧ refused.isolated = false ∧
      xs = before.flatMap (remarks (some r)) ++ [.announce refused.event] := by
  induction notices generalizing xs with
  | nil => simp at h
  | cons notice rest ih =>
    rw [List.flatMap_cons, remarks, List.cons_append] at h
    rcases List.cons_eq_append_iff.1 h with ⟨-, hcall⟩ | ⟨xs, rfl, hcall⟩
    · cases hcall
    clear h
    have hlater : ∀ {xs'}, rest.flatMap (remarks (some r)) = xs' ++ .call handoff :: ys →
        ∃ before refused after, notice :: rest = before ++ refused :: after ∧
          refused.isolated = false ∧
          notice.remarks (some r) ++ xs' =
            before.flatMap (remarks (some r)) ++ [.announce refused.event] := by
      intro xs' hrest
      obtain ⟨before, refused, after, rfl, hisolated, rfl⟩ := ih hrest
      exact ⟨notice :: before, refused, after, rfl, hisolated, by simp⟩
    cases hisolated : notice.isolated with
    | true =>
      simp only [hisolated, Bool.true_or, if_true, List.nil_append] at hcall
      simpa [remarks, hisolated] using hlater hcall
    | false =>
      simp only [hisolated, Option.isNone_some, Bool.or_self, Bool.false_eq_true, if_false,
        List.singleton_append] at hcall
      rcases List.cons_eq_append_iff.1 hcall with ⟨rfl, -⟩ | ⟨xs, rfl, hrest⟩
      · exact ⟨[], notice, rest, rfl, hisolated, rfl⟩
      · simpa [remarks, hisolated] using hlater hrest

end Notice

/-- The listing of notices. -/
def Listing.notices : Listing Notice :=
  ⟨fun handoff _ => ⟨handoff, false⟩, List.map fun notice => { notice with isolated := true }⟩

/-! ## The remarks of a rendering -/

theorem remarks_handOver {renderer : Option QueryRenderer} (hr : IsBuiltIn renderer)
    (handoff : Handoff) (builtIn outlined : Unit → List Step) :
    Steps.remarks (handOver renderer handoff builtIn outlined) =
      Notice.remarks renderer ⟨handoff, false⟩ ++ Steps.remarks (builtIn ()) := by
  rcases hr with rfl | rfl | rfl <;> rfl

/-- Without a renderer nothing is called for, as in an isolated part under any renderer. -/
theorem Notice.flatMap_remarks_isolate (renderer : Option QueryRenderer) (notices : List Notice) :
    (Listing.notices.isolate notices).flatMap (remarks renderer) =
      notices.flatMap (remarks none) := by
  simp only [Listing.notices, List.flatMap_map]
  refine congrArg (List.flatMap · notices) (funext fun notice => ?_)
  simp [remarks, event]

mutual

/-- In the built-in way the steps of a layout remark its notices. -/
theorem Layout.remarks_steps {renderer : Option QueryRenderer} (hr : IsBuiltIn renderer) :
    ∀ l : Layout, Steps.remarks (l.steps renderer) =
      (l.listed .notices).flatMap (Notice.remarks renderer)
  | .empty => by simp [Layout.steps, Steps.remarks]
  | .token t => by simp [Layout.steps, Steps.remarks]
  | .verbatim t => by simp [Layout.steps, Steps.remarks]
  | .append first second => by
    simp [Layout.steps, Layout.remarks_steps hr first, Layout.remarks_steps hr second]
  | .isolated inner => by
    rw [Layout.steps, Layout.listed, Notice.flatMap_remarks_isolate]
    exact Layout.remarks_steps .none inner
  | .commonTable name columns body => by
    have hbody := Body.remarks_builtIn hr body
    rw [Layout.steps, remarks_handOver hr, Layout.listed, List.flatMap_cons, ← hbody]
    simp [Steps.remarks, Listing.notices]
  | .query body => by
    have hbody := Body.remarks_builtIn hr body
    rw [Layout.steps, remarks_handOver hr, Layout.listed, List.flatMap_cons, ← hbody]
    rfl

theorem Body.remarks_builtIn {renderer : Option QueryRenderer} (hr : IsBuiltIn renderer) :
    ∀ body : Body, Steps.remarks (body.builtIn renderer) =
      (body.listed .notices).flatMap (Notice.remarks renderer)
  | .select before condition after => by
    simp [Body.builtIn, Steps.remarks, Layout.remarks_steps hr before,
      Layout.remarks_steps hr condition, Layout.remarks_steps hr after]
  | .compound left joiner right => by
    simp [Body.builtIn, Steps.remarks, Body.remarks_builtIn hr left,
      Body.remarks_builtIn hr right]

end

namespace Announced

/-- The notice of something that is announced. -/
def notice (a : Announced) : Notice :=
  ⟨a.handed.handoff, a.isolated⟩

/-- The event that announces it. -/
def event (a : Announced) : Event :=
  .handingOver a.handed.handoff

end Announced

namespace Expr

/-- The notices on the layout of a tree are those of what it announces. -/
theorem listed_notices (e : Expr) :
    e.layout.listed .notices = e.announced.map Announced.notice := by
  refine listed_layout .notices (f := fun e => e.announced.map Announced.notice) (fun n => ?_) e
  rw [announced_node, List.map_flatMap]
  refine congrArg (List.flatMap · n.parts) (funext fun part => ?_)
  cases part with
  | expr e => rfl
  | isolated e => simp [Listing.notices, Announced.notice, Announced.inIsolation]
  | handed h => rfl

theorem remarks_steps {renderer : Option QueryRenderer} (hr : IsBuiltIn renderer) (e : Expr) :
    Steps.remarks (e.layout.steps renderer) =
      (e.announced.map Announced.notice).flatMap (Notice.remarks renderer) := by
  rw [Layout.remarks_steps hr, listed_notices]

/-- In the built-in way the steps announce what the tree announces. -/
theorem events_steps {renderer : Option QueryRenderer} (hr : IsBuiltIn renderer) (e : Expr) :
    Steps.events (e.layout.steps renderer) = e.announced.map Announced.event := by
  rw [← Steps.events_remarks, remarks_steps hr, Notice.events_flatMap_remarks, List.map_map]
  rfl

theorem calledFor_map_notice (announced : List Announced) :
    Notice.calledFor (announced.map Announced.notice) =
      (handedOf announced).map Handed.handoff := by
  rw [Notice.calledFor, handedOf, List.filter_map, List.map_map, List.map_map]
  rfl

/-- The recorded steps call for what is announced and not isolated. -/
theorem handoffs_recordedSteps (e : Expr) (offset : Nat) :
    (Steps.calls offset e.recordedSteps).map CallRecord.handoff =
      (handedOf e.announced).map Handed.handoff := by
  rw [← Steps.handoffs_remarks, recordedSteps, remarks_steps .recording,
    Notice.handoffs_flatMap_remarks, calledFor_map_notice]

/-- What the recorded steps have announced when they note a call : all up to what is called for. -/
theorem events_of_split (e : Expr) {before after : List Step} {handoff : Handoff}
    (h : e.recordedSteps = before ++ .call handoff :: after) (offset : Nat) :
    ∃ earlier refused later, e.announced = earlier ++ refused :: later ∧
      refused.isolated = false ∧
      (handedOf earlier).length = (Steps.calls offset before).length ∧
      Steps.events before = (earlier ++ [refused]).map Announced.event := by
  have hremarks := e.remarks_steps .recording
  rw [← recordedSteps, h, Steps.remarks_append] at hremarks
  obtain ⟨notices, notice, notices', hsplit, hisolated, hbefore⟩ :=
    Notice.exists_split_of_call hremarks.symm
  obtain ⟨earlier, rest, hannounced, rfl, hrest⟩ := List.map_eq_append_iff.1 hsplit
  obtain ⟨refused, later, rfl, rfl, -⟩ := List.map_eq_cons_iff.1 hrest
  refine ⟨earlier, refused, later, hannounced, hisolated, ?_, ?_⟩
  · have hcalls := Steps.handoffs_remarks before offset
    rw [hbefore, Steps.handoffs_append, Notice.handoffs_flatMap_remarks,
      calledFor_map_notice] at hcalls
    simpa [Steps.handoffs] using congrArg List.length hcalls
  · rw [← Steps.events_remarks, hbefore, Steps.events_append, Notice.events_flatMap_remarks,
      List.map_map, List.map_append]
    rfl

end Expr

/-! ## Events of a rendering -/

/-- What a step announces is a hand-off. -/
def Step.Traced (step : Step) : Prop :=
  ∀ event, step = .announce event → event.level = "TRACE"

theorem Step.pervasive_traced : Step.Pervasive fun _ => Step.Traced where
  write _ _ _ h := by cases h
  isolated _ _ h := h
  handOver renderer handoff builtIn outlined hb ho := by
    have hannounce : (Step.announce (.handingOver handoff)).Traced := by
      rintro _ ⟨⟩
      rfl
    have hother : ∀ step : Step, (∀ event, step ≠ .announce event) → step.Traced :=
      fun step hne event h => (hne event h).elim
    cases renderer with
    | none => exact List.forall_mem_cons.2 ⟨hannounce, hb⟩
    | some r =>
      cases r <;> cases handoff <;>
        simp_all [handOver, QueryRenderer.answer]

namespace Progress

/-- A run announces nothing that its steps do not announce. -/
theorem announce_mem_of_mem_events (p : Progress) (steps : List Step) {event : Event}
    (h : event ∈ (p.run steps).1.events) : event ∈ p.events ∨ .announce event ∈ steps := by
  induction steps generalizing p with
  | nil => exact .inl h
  | cons step rest ih =>
    rw [run] at h
    cases step with
    | announce other =>
      rcases ih _ h with hmem | hmem
      · rcases List.mem_append.1 hmem with hmem | hmem
        · exact .inl hmem
        · rw [List.mem_singleton.1 hmem]
          exact .inr List.mem_cons_self
      · exact .inr (List.mem_cons_of_mem _ hmem)
    | write t => exact (ih _ h).imp_right (List.mem_cons_of_mem _)
    | call handoff => exact (ih _ h).imp_right (List.mem_cons_of_mem _)
    | spend =>
      cases hb : p.budget with
      | zero =>
        simp only [take, hb] at h
        exact .inl h
      | succ left =>
        simp only [take, hb] at h
        exact (ih _ h).imp_right (List.mem_cons_of_mem _)
    | fail fault => exact .inl h

end Progress

namespace Session

/-- Whatever the renderer, all that a rendering announces is that something is handed over. -/
theorem level_of_mem_events_render (s : Session) (e : Expr) :
    ∀ event ∈ (s.render (.expr e)).2.events, event.level = "TRACE" := by
  intro event h
  rcases Progress.announce_mem_of_mem_events _ _ h with hmem | hmem
  · cases hmem
  · exact e.layout.forall_mem_steps Step.pervasive_traced s.renderer _ hmem event rfl

/-- Rendering to a text of its own is rendering to an empty text, and announcing a success. -/
theorem renderToText_eq_render (s : Session) (e : Expr) :
    let rendering := { s with buffer := "" }.render (.expr e)
    let report := (s.renderToText e).2
    report.fault = rendering.2.fault ∧
      match rendering.2.fault with
      | none => report.text = some rendering.1.buffer ∧
          report.events = rendering.2.events ++ [.finished rendering.1.buffer.utf8ByteSize]
      | some _ => report.text = none ∧ report.events = rendering.2.events := by
  simp only [renderToText, render, Fragment.steps]
  cases ((Progress.start "" s.budget).run (e.layout.steps s.renderer)).2 with
  | none => exact ⟨rfl, rfl, rfl⟩
  | some fault => exact ⟨rfl, rfl, rfl⟩

/-- The run behind a limited rendering. -/
theorem render_limited (m n : Nat) (buffer : String) (e : Expr) :
    Session.render ⟨some (.limited m), buffer, n⟩ (.expr e) =
      let run := (Progress.start buffer n).run (e.recordedSteps.flatMap Step.rationed)
      (⟨some (.limited m), run.1.buffer, run.1.budget⟩,
        ⟨run.2, run.1.calls, run.1.events, none⟩) := by
  simp only [render, Fragment.steps, Layout.steps_limited, Expr.recordedSteps]

end Session

/-- What a limited rendering announces, with the given budget left. -/
theorem Expr.events_limited (e : Expr) (limit : Nat) (buffer : String) (budget : Nat) :
    let report := (Session.render ⟨some (.limited limit), buffer, budget⟩ (.expr e)).2
    match report.fault with
    | none => report.events = e.announced.map Announced.event
    | some _ =>
      ∃ before refused after, e.announced = before ++ refused :: after ∧
        refused.isolated = false ∧ (handedOf before).length = budget ∧
        report.events = (before ++ [refused]).map Announced.event := by
  intro report
  have hreport : report = _ := congrArg Prod.snd (Session.render_limited limit budget buffer e)
  rcases Nat.lt_or_ge budget (Steps.calls buffer.utf8ByteSize e.recordedSteps).length with hlt | hge
  · obtain ⟨before, handoff, after, hsplit, hcount, -⟩ :=
      Steps.exists_split_of_getElem? (List.getElem?_eq_getElem hlt)
    have hcalm : ∀ step ∈ before, step.Calm := fun step hs =>
      e.calm_of_mem_recordedSteps step (by rw [hsplit]; exact List.mem_append_left _ hs)
    have hrun := (Progress.start buffer budget).run_rationed_of_split before handoff after hcalm
      hcount
    rw [← hsplit] at hrun
    obtain ⟨earlier, refused, later, hannounced, hisolated, hlength, hevents⟩ :=
      e.events_of_split hsplit buffer.utf8ByteSize
    rw [hreport, hrun]
    exact ⟨earlier, refused, later, hannounced, hisolated, hlength.trans hcount, hevents⟩
  · have hrun := (Progress.start buffer budget).run_rationed e.recordedSteps
      e.calm_of_mem_recordedSteps hge
    rw [hreport, hrun]
    exact e.events_steps .recording

/-- What a rendering announces. In the built-in way, from every text, the events are those of
`announced`, with the configured renderer or without one; of what is recorded they are the part
that is not isolated. A limited rendering that succeeds announces all of them, and one that fails
those up to the first hand-off beyond the budget. Rendered to a text of its own, the expression
announces the same, and after a success, last of all, the length of the text. -/
theorem Expr.events_announced (e : Expr) :
    (∀ renderer ∈ [none, some .plain, some .recording], ∀ buffer budget,
      (Session.render ⟨renderer, buffer, budget⟩ (.expr e)).2.events =
        e.announced.map Announced.event) ∧
    (∀ buffer budget,
      let rendering := Session.render ⟨some .recording, buffer, budget⟩ (.expr e)
      (rendering.1.recorded rendering.2).map CallRecord.handoff =
        (handedOf e.announced).map Handed.handoff) ∧
    (∀ limit buffer budget,
      let report := (Session.render ⟨some (.limited limit), buffer, budget⟩ (.expr e)).2
      match report.fault with
      | none => report.events = e.announced.map Announced.event
      | some _ =>
        ∃ before refused after, e.announced = before ++ refused :: after ∧
          refused.isolated = false ∧ (handedOf before).length = budget ∧
          report.events = (before ++ [refused]).map Announced.event) ∧
    ∀ s : Session,
      let rendering := { s with buffer := "" }.render (.expr e)
      let report := (s.renderToText e).2
      report.fault = rendering.2.fault ∧
        (∀ event ∈ rendering.2.events, event.level = "TRACE") ∧
        match rendering.2.fault with
        | none => report.text = some rendering.1.buffer ∧
            report.events = rendering.2.events ++ [.finished rendering.1.buffer.utf8ByteSize]
        | some _ => report.text = none ∧ report.events = rendering.2.events := by
  refine ⟨?_, ?_, ?_, ?_⟩
  · intro renderer hr buffer budget
    have hbuiltIn : IsBuiltIn renderer := by simpa [IsBuiltIn] using hr
    rw [Session.render_of_isBuiltIn _ hbuiltIn]
    exact e.events_steps hbuiltIn
  · intro buffer budget rendering
    have hrendering : rendering = _ := Session.render_of_isBuiltIn _ .recording _
    rw [hrendering, Session.recorded, if_pos rfl]
    exact e.handoffs_recordedSteps _
  · exact e.events_limited
  · intro s rendering report
    obtain ⟨hfault, houtcome⟩ := s.renderToText_eq_render e
    exact ⟨hfault, Session.level_of_mem_events_render _ e, houtcome⟩

/-- A query in a cast, which is isolated, beside one with a common table : all three are announced,
two are called for, and with a budget for one call the last of them is the one refused. -/
theorem Expr.events_announced_membership :
    let query := Query.plain (.ofItems [.ofExpr (.column "a")])
    let sub := Expr.node (.subQuery ⟨query, [], true⟩)
    let e := Expr.node (.membership (.expr (sub.cast .integer))
      (.query ⟨.compound .union true query query, [⟨"t", [], query⟩], true⟩) false .absent)
    let events : List Event :=
      [.handingOver (.query false), .handingOver (.commonTable "t"), .handingOver (.query true)]
    let cut := (Session.render ⟨some (.limited 1), "é = ", 1⟩ (.expr e)).2
    (∀ renderer ∈ [none, some .plain, some .recording],
      (Session.render ⟨renderer, "é = ", 0⟩ (.expr e)).2.events = events) ∧
      cut.fault = some (.budgetExhausted 58) ∧ cut.events = events ∧
      e.announced.map Announced.isolated = [true, false, false] := by
  intro query sub e events cut
  obtain ⟨hevents, -⟩ := e.events_announced
  refine ⟨fun renderer hr => ?_, by decide +kernel, by decide +kernel, by decide +kernel⟩
  rw [hevents renderer hr]
  decide +kernel

end SqlText
