import SqlText.Proofs.Handoff.Places

/-!
# Refused hand-offs

Some renderers answer no call at all : the failing one, the unformattable one and the limited one
without a budget. Up to the first hand-off the steps of a layout are the same under all renderers
(`Layout.exists_steps_eq`), so such a renderer stops a rendering where its first call would have
been recorded. It is the renderer's own failure that is reported, and nothing is written behind it.

`Expr.renderedBy_refusing` compares the three renderers with the recorded rendering : without
recorded calls all of them succeed with the full text, and otherwise all of them stop at the first
recorded call.
-/

namespace SqlText

/-! ## Up to the first hand-off -/

/-- Without hand-offs the steps of a layout do not depend on the renderer. -/
theorem Layout.steps_of_places_eq_nil (renderer : Option QueryRenderer) :
    ∀ l : Layout, l.places = [] → l.steps renderer = l.steps none
  | .empty, _ => by rw [Layout.steps, Layout.steps]
  | .token t, _ => by rw [Layout.steps, Layout.steps]
  | .verbatim t, _ => by rw [Layout.steps, Layout.steps]
  | .append first second, h => by
    rw [Layout.places, List.append_eq_nil_iff, List.map_eq_nil_iff] at h
    rw [Layout.steps, Layout.steps, Layout.steps_of_places_eq_nil renderer first h.1,
      Layout.steps_of_places_eq_nil renderer second h.2]
  | .isolated inner, _ => by rw [Layout.steps, Layout.steps]
  | .commonTable name columns body, h => by simp [Layout.places] at h
  | .query body, h => by simp [Layout.places] at h

/-- The steps of a layout with a hand-off : what is before the first one does not depend on the
renderer and ends where the hand-off has its place. -/
theorem Layout.exists_steps_eq : ∀ (l : Layout) {place : Place} {rest : List Place},
    l.places = place :: rest →
      ∃ before, (∀ step ∈ before, step.AllowedBy none) ∧ Steps.text before = place.before ∧
        ∀ r : QueryRenderer, ∃ builtIn outlined after,
          l.steps (some r) = before ++ handOver (some r) place.handoff builtIn outlined ++ after
  | .empty, _, _, h => by simp [Layout.places] at h
  | .token t, _, _, h => by simp [Layout.places] at h
  | .verbatim t, _, _, h => by simp [Layout.places] at h
  | .append first second, place, rest, h => by
    rw [Layout.places] at h
    rcases List.append_eq_cons_iff.1 h with ⟨hfirst, hsecond⟩ | ⟨more, hfirst, -⟩
    · -- The first part hands nothing over, so all of it stands before the hand-off.
      obtain ⟨inner, others, hplaces, rfl, -⟩ := List.map_eq_cons_iff.1 hsecond
      obtain ⟨before, hallowed, htext, hsteps⟩ := Layout.exists_steps_eq second hplaces
      refine ⟨first.steps none ++ before, ?_, ?_, fun r => ?_⟩
      · exact List.forall_mem_append.2 ⟨first.allowedBy_of_mem_steps none, hallowed⟩
      · rw [Steps.text_append, Layout.text_steps .none, htext]
        rfl
      · obtain ⟨builtIn, outlined, after, heq⟩ := hsteps r
        refine ⟨builtIn, outlined, after, ?_⟩
        rw [Layout.steps, Layout.steps_of_places_eq_nil _ first hfirst, heq]
        simp only [List.append_assoc]
        rfl
    · obtain ⟨before, hallowed, htext, hsteps⟩ := Layout.exists_steps_eq first hfirst
      refine ⟨before, hallowed, htext, fun r => ?_⟩
      obtain ⟨builtIn, outlined, after, heq⟩ := hsteps r
      refine ⟨builtIn, outlined, after ++ second.steps (some r), ?_⟩
      rw [Layout.steps, heq, List.append_assoc _ after]
  | .isolated inner, _, _, h => by simp [Layout.places] at h
  | .commonTable name columns body, place, rest, h => by
    rw [Layout.places] at h
    obtain ⟨rfl, -⟩ := List.cons_eq_cons.1 h
    refine ⟨[], by simp, rfl, fun r => ?_⟩
    rw [Layout.steps]
    exact ⟨_, _, [], (List.append_nil _).symm⟩
  | .query body, place, rest, h => by
    rw [Layout.places] at h
    obtain ⟨rfl, -⟩ := List.cons_eq_cons.1 h
    refine ⟨[], by simp, rfl, fun r => ?_⟩
    rw [Layout.steps]
    exact ⟨_, _, [], (List.append_nil _).symm⟩

/-! ## Renderers that refuse every call -/

/-- How a call is refused : what is still written, and the failure. -/
structure Refusal where
  mark : String
  fault : Fault

/-- How a renderer that answers no call refuses the given one. -/
def QueryRenderer.refusal? (renderer : QueryRenderer) (record : CallRecord) : Option Refusal :=
  match renderer, record.handoff with
  | failing, .query _ => some ⟨"<partial>", .unsupportedQuery⟩
  | failing, .commonTable _ => some ⟨"", .unsupportedCommonTable⟩
  | unformattable, _ => some ⟨"", .unformattable⟩
  | limited 0, _ => some ⟨"", .budgetExhausted record.offset⟩
  | _, _ => none

/-- A refused hand-off ends the run : it is announced, its call is noted, the mark is written, and
what would come behind it does not happen. -/
theorem Progress.run_handOver_of_refusal {r : QueryRenderer} {record : CallRecord}
    {refusal : Refusal} (hr : r.refusal? record = some refusal) (p : Progress)
    (hp : p.length = record.offset) (hb : p.budget = 0) (builtIn outlined : Unit → List Step)
    (after : List Step) :
    p.run (handOver (some r) record.handoff builtIn outlined ++ after) =
      (⟨p.buffer ++ refusal.mark, p.calls ++ [record],
        p.events ++ [.handingOver record.handoff], 0⟩, some refusal.fault) := by
  obtain ⟨buffer, calls, events, budget⟩ := p
  obtain ⟨handoff, offset⟩ := record
  obtain rfl : budget = 0 := hb
  obtain rfl : buffer.utf8ByteSize = offset := hp
  cases r with
  | failing =>
    cases handoff with
    | query compound =>
      obtain rfl := Option.some.inj hr
      rfl
    | commonTable name =>
      obtain rfl := Option.some.inj hr
      rw [String.append_empty]
      rfl
  | unformattable =>
    obtain rfl := Option.some.inj hr
    rw [String.append_empty]
    rfl
  | limited n =>
    cases n with
    | zero =>
      obtain rfl := Option.some.inj hr
      rw [String.append_empty]
      rfl
    | succ n => cases hr
  | _ => cases hr

/-! ## Where a refused rendering ends -/

/-- A rendering that ended at a call : it failed as the call was refused, no other call was made,
and of the full text there are the bytes up to the call, followed by the mark of the refusal. -/
structure StoppedAt (full : String) (record : CallRecord) (refusal : Refusal)
    (rendering : Session × Report) : Prop where
  fault : rendering.2.fault = some refusal.fault
  calls : rendering.2.calls = [record]
  bytes : rendering.1.buffer.toByteArray =
    full.toByteArray.extract 0 record.offset ++ refusal.mark.toByteArray

/-- Without hand-offs a rendering succeeds with the SQL text, whatever the renderer. It makes no
call, and nothing else of the session changes. -/
theorem Session.render_of_places_eq_nil (s : Session) {e : Expr} (h : e.layout.places = []) :
    s.render (.expr e) =
      ({ s with buffer := s.buffer ++ e.sql },
        ⟨none, [], Steps.events (e.layout.steps none), none⟩) := by
  have hallowed := e.layout.allowedBy_of_mem_steps none
  have hcalm : ∀ step ∈ e.layout.steps none, step.Calm := fun step hs =>
    (hallowed step hs).calm .none
  have hsteps : (Fragment.expr e).steps s.renderer = e.layout.steps none :=
    Layout.steps_of_places_eq_nil s.renderer e.layout h
  have hrun := (Progress.start s.buffer s.budget).run_of_calm _ hcalm
  rw [Layout.text_steps .none, Expr.text_layout, Steps.calls_of_none _ hallowed] at hrun
  simp only [render, hsteps, hrun]
  rfl

/-- Configuring a renderer leaves the text alone. -/
theorem Session.buffer_configure (s : Session) (renderer : Option QueryRenderer) :
    (s.configure renderer).buffer = s.buffer := by
  unfold configure
  split <;> rfl

namespace Expr

/-- The calls that are recorded of a rendering are the places of the layout. -/
theorem recorded_places (e : Expr) :
    (e.renderedBy (some .recording)).1.recorded (e.renderedBy (some .recording)).2 =
      e.layout.places.map (Place.record 0) := by
  simp only [renderedBy_recording, Session.recorded, if_true]
  exact e.layout.calls_steps 0

/-- A renderer that answers no call starts without a budget. -/
theorem configure_of_refusal {r : QueryRenderer} {record : CallRecord} {refusal : Refusal}
    (hr : r.refusal? record = some refusal) :
    Session.start.configure (some r) = ⟨some r, "", 0⟩ := by
  cases r with
  | limited n =>
    cases n with
    | zero => rfl
    | succ n => cases hr
  | _ => rfl

/-- A renderer that answers no call stops the rendering at the first hand-off. -/
theorem stoppedAt_of_refusal {e : Expr} {place : Place} {rest : List Place}
    (h : e.layout.places = place :: rest) {r : QueryRenderer} {refusal : Refusal}
    (hr : r.refusal? (place.record 0) = some refusal) :
    StoppedAt e.sql (place.record 0) refusal (e.renderedBy (some r)) := by
  obtain ⟨before, hallowed, htext, hsteps⟩ := e.layout.exists_steps_eq h
  obtain ⟨builtIn, outlined, after, heq⟩ := hsteps r
  have hcalm : ∀ step ∈ before, step.Calm := fun step hs => (hallowed step hs).calm .none
  have hrun : (Progress.start "" 0).run (e.layout.steps (some r)) =
      (⟨place.before ++ refusal.mark, [place.record 0],
        Steps.events before ++ [.handingOver place.handoff], 0⟩, some refusal.fault) := by
    have hbefore := (Progress.start "" 0).run_of_calm before hcalm
    rw [htext, Steps.calls_of_none _ hallowed] at hbefore
    rw [heq, List.append_assoc, Progress.run_append, hbefore]
    simp only [Progress.start, String.empty_append, List.nil_append]
    exact Progress.run_handOver_of_refusal hr _ (Nat.zero_add _).symm rfl builtIn outlined after
  have hplace : place ∈ e.layout.places := h ▸ List.mem_cons_self
  obtain ⟨behind, htext⟩ := e.layout.standsIn_of_mem_places place hplace
  rw [text_layout, String.append_assoc] at htext
  have hrendering : e.renderedBy (some r) =
      (⟨some r, place.before ++ refusal.mark, 0⟩,
        ⟨some refusal.fault, [place.record 0],
          Steps.events before ++ [.handingOver place.handoff], none⟩) := by
    rw [renderedBy, configure_of_refusal hr]
    simp only [Session.render, Fragment.steps, hrun]
  have hoffset : (place.record 0).offset = place.before.toByteArray.size := Nat.zero_add _
  refine ⟨by rw [hrendering], by rw [hrendering], ?_⟩
  rw [hrendering, htext, String.toByteArray_append, String.toByteArray_append,
    ByteArray.extract_append_eq_left hoffset]

/-- Three renderers that answer no call. If no call is recorded of the rendering, each of them
succeeds with the default text. If there is a first recorded call, each of them stops at it with the
failure of its own, and only the failing one leaves a mark, and that for a query. -/
theorem renderedBy_refusing (e : Expr) :
    let recorded := e.renderedBy (some .recording)
    let text := (e.renderedBy none).1.buffer
    let failed := e.renderedBy (some .failing)
    let unformatted := e.renderedBy (some .unformattable)
    let unpaid := e.renderedBy (some (.limited 0))
    match recorded.1.recorded recorded.2 with
    | [] =>
      ∀ rendering ∈ [failed, unformatted, unpaid],
        rendering.2.fault = none ∧ rendering.1.buffer = text
    | first :: _ =>
      (match first.handoff with
        | .query _ =>
          StoppedAt text first ⟨"<partial>", .unsupportedQuery⟩ failed ∧
            failed.2.fault.bind Fault.reason? = some "unsupported body"
        | .commonTable _ =>
          StoppedAt text first ⟨"", .unsupportedCommonTable⟩ failed ∧
            failed.2.fault.bind Fault.reason? = some "unsupported WITH item") ∧
        StoppedAt text first ⟨"", .unformattable⟩ unformatted ∧
        StoppedAt text first ⟨"", .budgetExhausted first.offset⟩ unpaid := by
  intro recorded text failed unformatted unpaid
  have htext : text = e.sql := by simp only [text, renderedBy_of_isBuiltIn .none]
  have hrecords : recorded.1.recorded recorded.2 = e.layout.places.map (Place.record 0) :=
    e.recorded_places
  rw [hrecords, htext]
  cases hplaces : e.layout.places with
  | nil =>
    have hfree : ∀ renderer, (e.renderedBy renderer).2.fault = none ∧
        (e.renderedBy renderer).1.buffer = e.sql := by
      intro renderer
      rw [renderedBy, Session.render_of_places_eq_nil _ hplaces, Session.buffer_configure]
      exact ⟨rfl, String.empty_append⟩
    simp only [List.map_nil, List.forall_mem_cons]
    exact ⟨hfree _, hfree _, hfree _, by simp⟩
  | cons place rest =>
    have hstopped := fun r refusal => @stoppedAt_of_refusal e place rest hplaces r refusal
    refine ⟨?_, hstopped .unformattable _ rfl, hstopped (.limited 0) _ rfl⟩
    obtain ⟨before, handoff, handed⟩ := place
    cases handoff with
    | query compound =>
      have hfailed := hstopped .failing ⟨"<partial>", .unsupportedQuery⟩ rfl
      exact ⟨hfailed, by rw [hfailed.fault]; rfl⟩
    | commonTable name =>
      have hfailed := hstopped .failing ⟨"", .unsupportedCommonTable⟩ rfl
      exact ⟨hfailed, by rw [hfailed.fault]; rfl⟩

end Expr

end SqlText
