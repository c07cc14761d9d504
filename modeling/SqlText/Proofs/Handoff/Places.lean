import SqlText.Proofs.Handoff.Parts
import SqlText.Proofs.Render.Budget

/-!
# Where queries are handed over

A recording renderer notes for every call how long the text was. `Layout.places` says beforehand
what it will note : for each hand-off the text in front of it, how it is recorded, and the text that
the built-in way writes for it. The calls of a recorded run are these places (`Layout.calls_steps`),
each place is found in the text (`Layout.standsIn_of_mem_places`), and each is further on than the
one before (`Layout.rising_places`), because a select and a common table both begin with words of
their own.
-/

namespace SqlText

/-! ## Places -/

/-- A place where something is handed over. -/
structure Place where
  /-- The text in front of the place. -/
  before : String
  handoff : Handoff
  /-- The text of what is handed over. -/
  text : String

namespace Place

/-- The same place behind a text. -/
def behind (text : String) (place : Place) : Place :=
  { place with before := text ++ place.before }

/-- The call that is recorded at a place. -/
def record (offset : Nat) (place : Place) : CallRecord :=
  ⟨place.handoff, offset + place.before.utf8ByteSize⟩

/-- A place without its position. -/
def mark (place : Place) : Handoff × String :=
  (place.handoff, place.text)

@[simp] theorem mark_comp_behind (text : String) : mark ∘ behind text = mark :=
  rfl

theorem record_behind (offset : Nat) (text : String) (places : List Place) :
    (places.map (behind text)).map (record offset) =
      places.map (record (offset + text.utf8ByteSize)) := by
  simp [record, behind, String.utf8ByteSize_append, Nat.add_assoc]

end Place

mutual

/-- The places of a layout's hand-offs, in order. -/
def Layout.places : Layout → List Place
  | .empty => []
  | .token _ => []
  | .verbatim _ => []
  | .append first second => first.places ++ second.places.map (Place.behind first.text)
  | .isolated _ => []
  | .commonTable name columns body =>
    ⟨"", .commonTable name,
        name ++ CommonTable.columnsText columns ++ " AS (" ++ body.text ++ ")"⟩ ::
      body.places.map (Place.behind (name ++ CommonTable.columnsText columns ++ " AS ("))
  | .query body => ⟨"", .query body.isCompound, body.text⟩ :: body.places

/-- The places of the hand-offs inside a query. -/
def Body.places : Body → List Place
  | .select before condition after =>
    before.places.map (Place.behind "SELECT ") ++
      condition.places.map (Place.behind ("SELECT " ++ before.text)) ++
      after.places.map (Place.behind ("SELECT " ++ before.text ++ condition.text))
  | .compound left joiner right =>
    left.places ++ right.places.map (Place.behind (left.text ++ joiner))

end

/-! ## Recorded calls are places -/

/-- Without a renderer no call is noted. -/
theorem Steps.calls_of_none (offset : Nat) {steps : List Step}
    (h : ∀ step ∈ steps, step.AllowedBy none) : Steps.calls offset steps = [] := by
  induction steps generalizing offset with
  | nil => rfl
  | cons step rest ih =>
    obtain ⟨hstep, hrest⟩ := List.forall_mem_cons.1 h
    cases step with
    | call handoff => exact (hstep rfl).elim
    | _ => exact ih _ hrest

/-- A hand-off is noted, and then the calls of the built-in way. -/
theorem calls_handOver (offset : Nat) (handoff : Handoff) (builtIn outlined : Unit → List Step) :
    Steps.calls offset (handOver (some .recording) handoff builtIn outlined) =
      ⟨handoff, offset⟩ :: Steps.calls offset (builtIn ()) :=
  rfl

mutual

theorem Layout.calls_steps (offset : Nat) : ∀ l : Layout,
    Steps.calls offset (l.steps (some .recording)) = l.places.map (Place.record offset)
  | .empty => by simp [Layout.steps, Layout.places, Steps.calls]
  | .token t => by simp [Layout.steps, Layout.places, Steps.calls]
  | .verbatim t => by simp [Layout.steps, Layout.places, Steps.calls]
  | .append first second => by
    rw [Layout.steps, Steps.calls_append, Layout.text_steps .recording,
      Layout.calls_steps offset first, Layout.calls_steps _ second, Layout.places, List.map_append,
      Place.record_behind]
  | .isolated inner => by
    rw [Layout.steps, Layout.places]
    exact Steps.calls_of_none offset (Layout.allowedBy_of_mem_steps none inner)
  | .commonTable name columns body => by
    rw [Layout.steps, calls_handOver, Layout.places, List.map_cons, Place.record_behind]
    simp [Steps.calls, Steps.calls_append, Body.calls_builtIn, Place.record,
      String.utf8ByteSize_append, Nat.add_assoc]
  | .query body => by
    rw [Layout.steps, calls_handOver, Layout.places, List.map_cons, Body.calls_builtIn]
    rfl

theorem Body.calls_builtIn (offset : Nat) : ∀ body : Body,
    Steps.calls offset (body.builtIn (some .recording)) = body.places.map (Place.record offset)
  | .select before condition after => by
    simp only [Body.builtIn, Body.places, List.cons_append, Steps.calls, Steps.calls_append,
      Steps.text_append, Layout.text_steps .recording, Layout.calls_steps, List.map_append,
      Place.record_behind, String.utf8ByteSize_append, Nat.add_assoc]
  | .compound left joiner right => by
    simp only [Body.builtIn, Body.places, Steps.calls, Steps.calls_append,
      Body.text_builtIn .recording, Body.calls_builtIn, List.map_append,
      Place.record_behind, String.utf8ByteSize_append, Nat.add_assoc]

end

/-! ## Places are found in the text -/

namespace Place

/-- What is handed over at a place stands there in a text. -/
def StandsIn (text : String) (place : Place) : Prop :=
  ∃ after, text = place.before ++ place.text ++ after

theorem StandsIn.append {text : String} {place : Place} (h : place.StandsIn text) (more : String) :
    place.StandsIn (text ++ more) := by
  obtain ⟨after, rfl⟩ := h
  exact ⟨after ++ more, String.append_assoc⟩

theorem standsIn_of_mem_map_behind {text : String} {places : List Place}
    (h : ∀ place ∈ places, place.StandsIn text) (front : String) :
    ∀ place ∈ places.map (behind front), place.StandsIn (front ++ text) := by
  intro place hp
  obtain ⟨inner, hi, rfl⟩ := List.mem_map.1 hp
  obtain ⟨after, rfl⟩ := h inner hi
  exact ⟨after, by simp [behind, String.append_assoc]⟩

end Place

mutual

theorem Layout.standsIn_of_mem_places : ∀ (l : Layout), ∀ place ∈ l.places, place.StandsIn l.text
  | .empty => by simp [Layout.places]
  | .token t => by simp [Layout.places]
  | .verbatim t => by simp [Layout.places]
  | .append first second => by
    simp only [Layout.places, Layout.text, List.forall_mem_append]
    refine ⟨fun place hp => ?_, ?_⟩
    · exact (Layout.standsIn_of_mem_places first place hp).append _
    · exact Place.standsIn_of_mem_map_behind (Layout.standsIn_of_mem_places second) _
  | .isolated inner => by simp [Layout.places]
  | .commonTable name columns body => by
    simp only [Layout.places, Layout.text, List.forall_mem_cons]
    refine ⟨⟨"", by simp⟩, fun place hp => ?_⟩
    exact (Place.standsIn_of_mem_map_behind (Body.standsIn_of_mem_places body) _ place hp).append _
  | .query body => by
    simp only [Layout.places, Layout.text, List.forall_mem_cons]
    exact ⟨⟨"", by simp⟩, Body.standsIn_of_mem_places body⟩

theorem Body.standsIn_of_mem_places :
    ∀ (body : Body), ∀ place ∈ body.places, place.StandsIn body.text
  | .select before condition after => by
    simp only [Body.places, Body.text, List.forall_mem_append]
    refine ⟨⟨fun place hp => ?_, fun place hp => ?_⟩, ?_⟩
    · have hb := Place.standsIn_of_mem_map_behind (Layout.standsIn_of_mem_places before) _ place hp
      exact (hb.append _).append _
    · have hc :=
        Place.standsIn_of_mem_map_behind (Layout.standsIn_of_mem_places condition) _ place hp
      exact hc.append _
    · exact Place.standsIn_of_mem_map_behind (Layout.standsIn_of_mem_places after) _
  | .compound left joiner right => by
    simp only [Body.places, Body.text, List.forall_mem_append]
    refine ⟨fun place hp => ?_, ?_⟩
    · exact ((Body.standsIn_of_mem_places left place hp).append _).append _
    · exact Place.standsIn_of_mem_map_behind (Body.standsIn_of_mem_places right) _

end

/-! ## Places are further and further on -/

/-- Places in order, the first no earlier than `low` and all before `high`. -/
structure Rising (low high : Nat) (places : List Place) : Prop where
  pairwise : places.Pairwise fun p q => p.before.utf8ByteSize < q.before.utf8ByteSize
  bounds : ∀ p ∈ places, low ≤ p.before.utf8ByteSize ∧ p.before.utf8ByteSize < high

namespace Rising

variable {low middle high : Nat} {xs ys : List Place}

theorem nil : Rising low high [] :=
  ⟨List.Pairwise.nil, by simp⟩

theorem append (hx : Rising low middle xs) (hy : Rising middle high ys) (hl : low ≤ middle)
    (hh : middle ≤ high) : Rising low high (xs ++ ys) := by
  refine ⟨List.pairwise_append.2 ⟨hx.pairwise, hy.pairwise, fun p hp q hq => ?_⟩, ?_⟩
  · have := hx.bounds p hp
    have := hy.bounds q hq
    omega
  · refine List.forall_mem_append.2 ⟨fun p hp => ?_, fun q hq => ?_⟩
    · have := hx.bounds p hp
      omega
    · have := hy.bounds q hq
      omega

theorem behind (h : Rising low high xs) (front : String) :
    Rising (front.utf8ByteSize + low) (front.utf8ByteSize + high)
      (xs.map (Place.behind front)) := by
  have hsize : ∀ p : Place, (p.behind front).before.utf8ByteSize =
      front.utf8ByteSize + p.before.utf8ByteSize := fun _ => String.utf8ByteSize_append
  refine ⟨List.pairwise_map.2 (h.pairwise.imp fun hpq => ?_), fun p hp => ?_⟩
  · rw [hsize, hsize]
    omega
  · obtain ⟨inner, hi, rfl⟩ := List.mem_map.1 hp
    have := h.bounds inner hi
    rw [hsize]
    omega

theorem mono {low' high' : Nat} (h : Rising low high xs) (hl : low' ≤ low) (hh : high ≤ high') :
    Rising low' high' xs := by
  refine ⟨h.pairwise, fun p hp => ?_⟩
  have := h.bounds p hp
  omega

/-- A place at the very front. -/
theorem cons (handoff : Handoff) (text : String) (h : Rising 1 high xs) (hh : 0 < high) :
    Rising 0 high (⟨"", handoff, text⟩ :: xs) := by
  refine ⟨List.pairwise_cons.2 ⟨fun p hp => (h.bounds p hp).1, h.pairwise⟩, ?_⟩
  refine List.forall_mem_cons.2 ⟨⟨Nat.zero_le _, hh⟩, fun p hp => ?_⟩
  have := h.bounds p hp
  omega

end Rising

/-- A query never has an empty text. -/
theorem Body.text_pos : ∀ body : Body, 0 < body.text.utf8ByteSize
  | .select before condition after => by
    have hword : "SELECT ".utf8ByteSize = 7 := rfl
    simp only [Body.text, String.utf8ByteSize_append]
    omega
  | .compound left joiner right => by
    have hl := Body.text_pos left
    simp only [Body.text, String.utf8ByteSize_append]
    omega

mutual

theorem Layout.rising_places : ∀ l : Layout, Rising 0 l.text.utf8ByteSize l.places
  | .empty => by simpa [Layout.places] using Rising.nil
  | .token t => by simpa [Layout.places] using Rising.nil
  | .verbatim t => by simpa [Layout.places] using Rising.nil
  | .append first second => by
    have hs := (Layout.rising_places second).behind first.text
    rw [Layout.places, Layout.text, String.utf8ByteSize_append]
    exact (Layout.rising_places first).append hs (Nat.zero_le _) (Nat.le_add_right _ _)
  | .isolated inner => by simpa [Layout.places] using Rising.nil
  | .commonTable name columns body => by
    have hb := (Body.rising_places body).behind (name ++ CommonTable.columnsText columns ++ " AS (")
    rw [Layout.places, Layout.text]
    have hword : " AS (".utf8ByteSize = 5 := rfl
    simp only [String.utf8ByteSize_append] at hb ⊢
    exact Rising.cons _ _ (hb.mono (by omega) (by omega)) (by omega)
  | .query body => by
    have hb := Body.rising_places body
    rw [Layout.places, Layout.text]
    exact Rising.cons _ _ hb body.text_pos

theorem Body.rising_places : ∀ body : Body, Rising 1 body.text.utf8ByteSize body.places
  | .select before condition after => by
    have hb := (Layout.rising_places before).behind "SELECT "
    have hc := (Layout.rising_places condition).behind ("SELECT " ++ before.text)
    have ha := (Layout.rising_places after).behind ("SELECT " ++ before.text ++ condition.text)
    rw [Body.places, Body.text]
    have hword : "SELECT ".utf8ByteSize = 7 := rfl
    simp only [String.utf8ByteSize_append] at hb hc ha ⊢
    have hall := (hb.append hc (by omega) (by omega)).append ha (by omega) (by omega)
    exact hall.mono (by omega) (by omega)
  | .compound left joiner right => by
    have hr := (Body.rising_places right).behind (left.text ++ joiner)
    rw [Body.places, Body.text]
    simp only [String.utf8ByteSize_append] at hr ⊢
    have hl := left.text_pos
    refine (Body.rising_places left).append (hr.mono ?_ (Nat.le_refl _)) ?_ ?_ <;> omega

end

end SqlText
