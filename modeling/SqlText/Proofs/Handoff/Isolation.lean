import SqlText.Proofs.Handoff.Records
import SqlText.Proofs.Handoff.Refusal

/-!
# Isolated queries

A query in the operand of a cast or in the offset of a window frame is announced like any other, but
it is rendered in the built-in way and never reaches the configured renderer. `Expr.announced` lists
all that a rendering announces, with a note whether it is isolated; what is handed over is what has
no such note (`Expr.handedOver_eq_filter`).

If everything that is announced is isolated, the configured renderer plays no part. The rendering
succeeds with the SQL text even under a renderer that refuses every call, and no call is made or
paid for (`Session.render_of_isolated`).
-/

namespace SqlText

/-- Something that a rendering announces, and whether it stands in an isolated part. -/
structure Announced where
  handed : Handed Expr
  isolated : Bool

/-- The same, seen from outside an isolated part. -/
def Announced.inIsolation (a : Announced) : Announced :=
  { a with isolated := true }

namespace Expr

/-- What is announced in a part, given what is announced in the sub-expressions. -/
def announcedInPart : Part (Expr × List Announced) → List Announced
  | .expr e => e.2
  | .isolated e => e.2.map Announced.inIsolation
  | .handed h => [⟨h.map Prod.fst, false⟩]

/-- What a rendering of the expression announces, in order. -/
def announced : Expr → List Announced :=
  para fun n => n.parts.flatMap announcedInPart

/-- What is announced at a node : part by part, the hand-offs themselves and what is announced in
the sub-expressions, those of isolated parts included. -/
theorem announced_node (n : Node Expr) :
    (Expr.node n).announced =
      n.parts.flatMap fun
        | .expr e => e.announced
        | .isolated e => e.announced.map Announced.inIsolation
        | .handed h => [⟨h, false⟩] := by
  rw [announced, para_node, Node.parts_map, List.flatMap_map]
  refine congrArg (List.flatMap · n.parts) (funext fun part => ?_)
  cases part with
  | expr e => rfl
  | isolated e => rfl
  | handed h =>
    simp only [Part.map, announcedInPart, Handed.map_map]
    exact congrArg (fun f => [Announced.mk (f h) false]) Handed.map_id

/-- What is handed over of what is announced. -/
def handedOf (announced : List Announced) : List (Handed Expr) :=
  (announced.filter fun a => !a.isolated).map Announced.handed

theorem handedOf_flatMap {α : Type} (xs : List α) (f : α → List Announced) :
    handedOf (xs.flatMap f) = xs.flatMap fun x => handedOf (f x) := by
  rw [handedOf, List.filter_flatMap, List.map_flatMap]
  rfl

/-- Of an isolated part nothing is handed over. -/
theorem handedOf_inIsolation (announced : List Announced) :
    handedOf (announced.map Announced.inIsolation) = [] := by
  rw [handedOf, List.map_eq_nil_iff, List.filter_eq_nil_iff]
  intro a ha
  obtain ⟨inner, -, rfl⟩ := List.mem_map.1 ha
  simp [Announced.inIsolation]

/-- What is handed over is what is announced outside isolated parts. -/
theorem handedOver_eq_filter (e : Expr) : e.handedOver = handedOf e.announced := by
  refine (eq_para _ (f := fun e => handedOf e.announced) (fun n => ?_) e).symm
  rw [announced_node, handedOf_flatMap, Node.parts_map, List.flatMap_map]
  refine congrArg (List.flatMap · n.parts) (funext fun part => ?_)
  cases part with
  | expr e => rfl
  | isolated e => exact handedOf_inIsolation e.announced
  | handed h =>
    simp only [Part.map, handedInPart, Handed.map_map]
    exact congrArg (fun f => [f h]) Handed.map_id.symm

/-- If all that is announced is isolated, the layout has no place where something is handed over. -/
theorem places_eq_nil_of_isolated {e : Expr} (h : ∀ a ∈ e.announced, a.isolated) :
    e.layout.places = [] := by
  have hhanded : e.handedOver = [] := by
    rw [handedOver_eq_filter, handedOf, List.map_eq_nil_iff, List.filter_eq_nil_iff]
    intro a ha
    simp [h a ha]
  have hmarks : e.layout.marks = [] := by rw [marks_layout, hhanded, List.map_nil]
  exact List.map_eq_nil_iff.1 hmarks

end Expr

/-- An expression whose queries, as far as they are written, are all isolated. Whatever the renderer
and its budget and whatever the text so far, its rendering succeeds and makes no call; the SQL text
is appended, and nothing else of the session changes. -/
theorem Session.render_of_isolated {e : Expr} (h : ∀ a ∈ e.announced, a.isolated) (s : Session) :
    (s.render (.expr e)).2.fault = none ∧ (s.render (.expr e)).2.calls = [] ∧
      (s.render (.expr e)).1 = { s with buffer := s.buffer ++ e.sql } := by
  rw [s.render_of_places_eq_nil (Expr.places_eq_nil_of_isolated h)]
  exact ⟨rfl, rfl, rfl⟩

/-- Under the failing renderer : a query in a cast, one in the offset of a frame, and one in a field
that is not written because there is no argument. -/
theorem Session.render_of_isolated_analytic :
    let sub := Expr.node (.subQuery (.ofQuery (.plain (.ofItems [.ofExpr (.column "a")]))))
    let e := Expr.node (.analytic { Analytic.ofName "lag" with
      offset := some sub
      orderBy := [.ofExpr (sub.cast .integer)]
      frame := some ⟨.rows, .single (.preceding sub)⟩ })
    let s : Session := ⟨some .failing, "é = ", 0⟩
    e.announced.length = 2 ∧ (∀ a ∈ e.announced, a.isolated) ∧
      (s.render (.expr e)).2.fault = none ∧ (s.render (.expr e)).2.calls = [] ∧
      (s.render (.expr e)).1.buffer =
        "é = lag() OVER (ORDER BY CAST((SELECT a) AS INTEGER) ROWS (SELECT a) PRECEDING)" := by
  intro sub e s
  have h : ∀ a ∈ e.announced, a.isolated := by decide +kernel
  obtain ⟨hfault, hcalls, hsession⟩ := render_of_isolated h s
  refine ⟨by decide +kernel, h, hfault, hcalls, ?_⟩
  rw [hsession]
  decide +kernel

end SqlText
