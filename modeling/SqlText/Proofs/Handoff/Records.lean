import Mathlib.Data.List.Forall2
import SqlText.Proofs.Handoff.Listing
import SqlText.Proofs.Handoff.Places

/-!
# Records of hand-offs

The places of a layout without their positions are its marks : for each hand-off how it is recorded
and the text of what is handed over. They are one of the listings of what is handed over, so the
marks of a tree are its hand-offs (`Expr.marks_layout`).

The main statement is `Expr.recorded_handedOver` : the records of a rendering are the hand-offs of
the expression as `Expr.handedOver` lists them, in this order and at strictly increasing offsets,
and at each offset the text of what was handed over begins.
-/

namespace SqlText

/-! ## Marks -/

/-- The hand-offs of a layout without their positions. -/
def Layout.marks (l : Layout) : List (Handoff × String) :=
  l.places.map Place.mark

/-- The hand-offs inside a query without their positions. -/
def Body.marks (body : Body) : List (Handoff × String) :=
  body.places.map Place.mark

/-- The listing of marks : of an isolated part nothing is noted. -/
def Listing.marks : Listing (Handoff × String) :=
  ⟨Prod.mk, fun _ => []⟩

theorem Listing.note_marks (handoff : Handoff) (text : String) :
    Listing.marks.note handoff text = (handoff, text) :=
  rfl

mutual

theorem Layout.map_mark_places : (l : Layout) → l.places.map Place.mark = l.listed .marks
  | .empty => by simp [Layout.places]
  | .token _ => by simp [Layout.places]
  | .verbatim _ => by simp [Layout.places]
  | .append first second => by
    have hfirst := first.map_mark_places
    have hsecond := second.map_mark_places
    simp [Layout.places, hfirst, hsecond]
  | .isolated _ => by simp [Layout.places, Listing.marks]
  | .commonTable _ _ body => by
    have hbody := body.map_mark_places
    simp [Layout.places, hbody, Place.mark, Listing.note_marks]
  | .query body => by
    have hbody := body.map_mark_places
    simp [Layout.places, hbody, Place.mark, Listing.note_marks]

theorem Body.map_mark_places : (body : Body) → body.places.map Place.mark = body.listed .marks
  | .select before condition after => by
    have hbefore := before.map_mark_places
    have hcondition := condition.map_mark_places
    have hafter := after.map_mark_places
    simp [Body.places, hbefore, hcondition, hafter]
  | .compound left _ right => by
    have hleft := left.map_mark_places
    have hright := right.map_mark_places
    simp [Body.places, hleft, hright]

end

@[simp] theorem Layout.marks_eq_listed (l : Layout) : l.marks = l.listed .marks :=
  l.map_mark_places

/-- The mark of something that is handed over. -/
def Handed.mark (h : Handed Expr) : Handoff × String :=
  (h.handoff, h.sql)

/-- The hand-offs in the layout of a tree are those of the tree. -/
theorem Expr.marks_layout (e : Expr) : e.layout.marks = e.handedOver.map Handed.mark := by
  rw [Layout.marks_eq_listed]
  refine Expr.listed_layout .marks (f := fun e => e.handedOver.map Handed.mark) (fun n => ?_) e
  rw [handedOver_node, List.map_flatMap]
  refine congrArg (List.flatMap · n.parts) (funext fun part => ?_)
  cases part <;> rfl

/-! ## Records of a rendering -/

/-- A record of what was handed over : it names the hand-off, and the SQL text of what was handed
over stands at its offset in the text. -/
def CallRecord.Shows (text : String) (record : CallRecord) (h : Handed Expr) : Prop :=
  record.handoff = h.handoff ∧
    ∃ before after, text = before ++ h.sql ++ after ∧ before.utf8ByteSize = record.offset

namespace Expr

/-- Each place in the layout of a tree belongs to a hand-off of the tree, and shows it. -/
theorem forall₂_places_handedOver (e : Expr) :
    List.Forall₂ (fun place h => (place.record 0).Shows e.sql h) e.layout.places e.handedOver := by
  have hmarks : List.Forall₂ (fun place h => Place.mark place = Handed.mark h)
      e.layout.places e.handedOver := by
    have h := e.marks_layout
    rw [Layout.marks, ← List.forall₂_eq_eq_eq, List.forall₂_map_left_iff,
      List.forall₂_map_right_iff] at h
    exact h
  have hstands := e.layout.standsIn_of_mem_places
  rw [text_layout] at hstands
  refine ((List.forall₂_and_left _ _).2 ⟨hstands, hmarks⟩).imp ?_
  rintro place h ⟨⟨after, htext⟩, hmark⟩
  obtain ⟨hhandoff, hsql⟩ := Prod.mk.inj hmark
  exact ⟨hhandoff, place.before, after, hsql ▸ htext, (Nat.zero_add _).symm⟩

/-- A recorded rendering into an empty text succeeds with the text of the default one. Its records
are one for each hand-off of the expression, in the order of `handedOver`; their offsets increase
strictly, and at each offset stands the SQL text of what was handed over. -/
theorem recorded_handedOver (e : Expr) :
    let rendering := e.renderedBy (some .recording)
    let records := rendering.1.recorded rendering.2
    rendering.2.fault = none ∧ rendering.1.buffer = (e.renderedBy none).1.buffer ∧
      List.Forall₂ (CallRecord.Shows rendering.1.buffer) records e.handedOver ∧
      records.Pairwise fun r r' => r.offset < r'.offset := by
  intro rendering records
  have hbuffer : rendering.1.buffer = e.sql := by simp only [rendering, renderedBy_recording]
  have hrecords : records = e.layout.places.map (Place.record 0) := by
    simp only [records, rendering, renderedBy_recording, Session.recorded, if_true]
    exact e.layout.calls_steps 0
  have hfault : rendering.2.fault = none := by simp only [rendering, renderedBy_recording]
  refine ⟨hfault, ?_, ?_, ?_⟩
  · rw [hbuffer, renderedBy_of_isBuiltIn .none]
  · rw [hbuffer, hrecords, List.forall₂_map_left_iff]
    exact e.forall₂_places_handedOver
  · rw [hrecords, List.pairwise_map]
    refine e.layout.rising_places.pairwise.imp fun h => ?_
    simpa only [Place.record, Nat.zero_add] using h

end Expr

end SqlText
