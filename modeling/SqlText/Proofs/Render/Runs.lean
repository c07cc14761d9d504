import SqlText.Render.Step

/-!
# Runs of steps

What a list of steps does is said without running it : the text it writes (`Steps.text`), the calls
it notes from a given offset on (`Steps.calls`), the events it announces (`Steps.events`). Steps
that neither fail nor spend do just that (`Progress.run_of_calm`).

Two ways of changing a run are followed through it. Behind a longer text a run writes the same and
fails in the same way, with all offsets shifted by the length of that text (`Progress.run_behind`).
When every call has to be paid for (`Step.rationed`), a run is the free one as long as the budget
lasts (`Progress.run_rationed`), and otherwise ends at the first call it cannot pay for
(`Progress.run_rationed_of_split`).
-/

namespace SqlText

/-! ## What steps do -/

/-- A step that writes, announces or notes a call : it cannot fail and costs nothing. -/
def Step.Calm : Step → Prop
  | .write _ => True
  | .announce _ => True
  | .call _ => True
  | .spend => False
  | .fail _ => False

namespace Steps

/-- The text that steps write. -/
def text : List Step → String
  | [] => ""
  | .write t :: rest => t ++ text rest
  | _ :: rest => text rest

/-- The calls that steps note when the text before them has the given length. -/
def calls (offset : Nat) : List Step → List CallRecord
  | [] => []
  | .write t :: rest => calls (offset + t.utf8ByteSize) rest
  | .call handoff :: rest => ⟨handoff, offset⟩ :: calls offset rest
  | _ :: rest => calls offset rest

/-- The events that steps announce. -/
def events : List Step → List Event
  | [] => []
  | .announce event :: rest => event :: events rest
  | _ :: rest => events rest

@[simp] theorem text_append (xs ys : List Step) : text (xs ++ ys) = text xs ++ text ys := by
  induction xs with
  | nil => simp [text]
  | cons step rest ih => cases step <;> simp [text, ih, String.append_assoc]

theorem calls_append (offset : Nat) (xs ys : List Step) :
    calls offset (xs ++ ys) = calls offset xs ++ calls (offset + (text xs).utf8ByteSize) ys := by
  induction xs generalizing offset with
  | nil => simp [calls, text]
  | cons step rest ih =>
    cases step <;> simp [calls, text, ih, String.utf8ByteSize_append, Nat.add_assoc]

end Steps

namespace Progress

/-- Running one list after another, unless the first fails. -/
theorem run_append (p : Progress) (xs ys : List Step) :
    p.run (xs ++ ys) =
      match p.run xs with
      | (q, none) => q.run ys
      | (q, some fault) => (q, some fault) := by
  induction xs generalizing p with
  | nil => rfl
  | cons step rest ih =>
    simp only [List.cons_append, run]
    cases p.take step with
    | ok q => exact ih q
    | error fault => rfl

/-- A run that does not fail has written the texts of all its steps. -/
theorem buffer_run_of_fault_eq_none {p : Progress} {steps : List Step}
    (h : (p.run steps).2 = none) : (p.run steps).1.buffer = p.buffer ++ Steps.text steps := by
  induction steps generalizing p with
  | nil => exact String.append_empty.symm
  | cons step rest ih =>
    rw [run] at h ⊢
    cases htake : p.take step with
    | error fault => simp [htake] at h
    | ok q =>
      rw [htake] at h
      have hq : q.buffer ++ Steps.text rest = p.buffer ++ Steps.text (step :: rest) := by
        cases step <;> grind [take, Steps.text, String.append_assoc]
      exact (ih h).trans hq

/-- Calm steps succeed, and do nothing but write, note and announce. -/
theorem run_of_calm (p : Progress) (steps : List Step) (h : ∀ step ∈ steps, step.Calm) :
    p.run steps =
      (⟨p.buffer ++ Steps.text steps, p.calls ++ Steps.calls p.length steps,
        p.events ++ Steps.events steps, p.budget⟩, none) := by
  induction steps generalizing p with
  | nil => simp [run, Steps.text, Steps.calls, Steps.events]
  | cons step rest ih =>
    obtain ⟨hstep, hrest⟩ := List.forall_mem_cons.1 h
    cases step with
    | write t =>
      simp [run, take, ih _ hrest, Steps.text, Steps.calls, Steps.events, length,
        String.append_assoc, String.utf8ByteSize_append]
    | announce event => simp [run, take, ih _ hrest, Steps.text, Steps.calls, Steps.events, length]
    | call handoff => simp [run, take, ih _ hrest, Steps.text, Steps.calls, Steps.events, length]
    | spend => exact hstep.elim
    | fail fault => exact hstep.elim

end Progress

/-! ## Runs behind a longer text -/

/-- The same call behind `n` more bytes. -/
def CallRecord.shift (n : Nat) (record : CallRecord) : CallRecord :=
  ⟨record.handoff, n + record.offset⟩

/-- The same failure behind `n` more bytes. -/
def Fault.shift (n : Nat) : Fault → Fault
  | .budgetExhausted offset => .budgetExhausted (n + offset)
  | fault => fault

/-- A step that does not itself name an offset. -/
def Step.Placeless : Step → Prop
  | .fail (.budgetExhausted _) => False
  | _ => True

namespace Progress

/-- The same progress behind a text. -/
def behind (text : String) (p : Progress) : Progress :=
  { p with
    buffer := text ++ p.buffer
    calls := p.calls.map (CallRecord.shift text.utf8ByteSize) }

theorem length_behind (text : String) (p : Progress) :
    (p.behind text).length = text.utf8ByteSize + p.length :=
  String.utf8ByteSize_append

/-- A step behind a text : the same outcome, shifted. -/
theorem take_behind (text : String) (p : Progress) {step : Step} (h : step.Placeless) :
    (p.behind text).take step =
      match p.take step with
      | .ok q => .ok (q.behind text)
      | .error fault => .error (fault.shift text.utf8ByteSize) := by
  cases step with
  | write t => simp [take, behind, String.append_assoc]
  | announce event => rfl
  | call handoff => simp [take, behind, length, CallRecord.shift, String.utf8ByteSize_append]
  | spend =>
    simp only [take, length_behind]
    cases hb : p.budget <;> simp [behind, hb, Fault.shift]
  | fail fault =>
    cases fault with
    | budgetExhausted offset => exact h.elim
    | _ => rfl

/-- A run behind a text : the same outcome, shifted. -/
theorem run_behind (text : String) (p : Progress) (steps : List Step)
    (h : ∀ step ∈ steps, step.Placeless) :
    (p.behind text).run steps =
      ((p.run steps).1.behind text, (p.run steps).2.map (Fault.shift text.utf8ByteSize)) := by
  induction steps generalizing p with
  | nil => rfl
  | cons step rest ih =>
    obtain ⟨hstep, hrest⟩ := List.forall_mem_cons.1 h
    simp only [run, take_behind text p hstep]
    cases p.take step with
    | ok q => exact ih q hrest
    | error fault => rfl

end Progress

/-! ## Runs that pay for their calls -/

/-- A step whose call, if it notes one, has to be paid for. -/
def Step.rationed : Step → List Step
  | .call handoff => [.call handoff, .spend]
  | step => [step]

/-- Where a list of steps notes its `n`-th call. -/
theorem Steps.exists_split_of_getElem? {steps : List Step} {offset n : Nat} {record : CallRecord}
    (h : (Steps.calls offset steps)[n]? = some record) :
    ∃ before handoff after, steps = before ++ .call handoff :: after ∧
      (Steps.calls offset before).length = n ∧
      record = ⟨handoff, offset + (Steps.text before).utf8ByteSize⟩ := by
  induction steps generalizing offset n with
  | nil => simp [calls] at h
  | cons step rest ih =>
    cases step with
    | write t =>
      obtain ⟨before, handoff, after, rfl, hn, rfl⟩ := ih h
      refine ⟨.write t :: before, handoff, after, rfl, hn, ?_⟩
      simp [text, String.utf8ByteSize_append, Nat.add_assoc]
    | call handoff =>
      cases n with
      | zero =>
        refine ⟨[], handoff, rest, rfl, rfl, ?_⟩
        simpa [calls, text] using h.symm
      | succ n =>
        obtain ⟨before, handoff', after, rfl, hn, rfl⟩ := ih (by simpa [calls] using h)
        refine ⟨.call handoff :: before, handoff', after, rfl, ?_, rfl⟩
        simp [calls, hn]
    | announce event =>
      obtain ⟨before, handoff, after, rfl, hn, rfl⟩ := ih h
      exact ⟨.announce event :: before, handoff, after, rfl, hn, rfl⟩
    | spend =>
      obtain ⟨before, handoff, after, rfl, hn, rfl⟩ := ih h
      exact ⟨.spend :: before, handoff, after, rfl, hn, rfl⟩
    | fail fault =>
      obtain ⟨before, handoff, after, rfl, hn, rfl⟩ := ih h
      exact ⟨.fail fault :: before, handoff, after, rfl, hn, rfl⟩

namespace Progress

/-- As long as the budget lasts, calls that are paid for change nothing but the budget. -/
theorem run_rationed (p : Progress) (steps : List Step) (h : ∀ step ∈ steps, step.Calm)
    (hb : (Steps.calls p.length steps).length ≤ p.budget) :
    p.run (steps.flatMap Step.rationed) =
      (⟨p.buffer ++ Steps.text steps, p.calls ++ Steps.calls p.length steps,
        p.events ++ Steps.events steps, p.budget - (Steps.calls p.length steps).length⟩, none) := by
  induction steps generalizing p with
  | nil => simp [run, Steps.text, Steps.calls, Steps.events]
  | cons step rest ih =>
    obtain ⟨hstep, hrest⟩ := List.forall_mem_cons.1 h
    cases step with
    | write t =>
      simp only [Steps.calls] at hb
      have hlen : (p.buffer ++ t).utf8ByteSize = p.length + t.utf8ByteSize :=
        String.utf8ByteSize_append
      have := ih ⟨p.buffer ++ t, p.calls, p.events, p.budget⟩ hrest
        (by simpa [length, hlen] using hb)
      simpa [Step.rationed, run, take, Steps.text, Steps.calls, Steps.events, length, hlen,
        String.append_assoc] using this
    | announce event =>
      have := ih ⟨p.buffer, p.calls, p.events ++ [event], p.budget⟩ hrest hb
      simpa [Step.rationed, run, take, Steps.text, Steps.calls, Steps.events, length] using this
    | call handoff =>
      simp only [Steps.calls, List.length_cons] at hb
      obtain ⟨left, hleft⟩ : ∃ left, p.budget = left + 1 := ⟨p.budget - 1, by omega⟩
      have := ih ⟨p.buffer, p.calls ++ [⟨handoff, p.length⟩], p.events, left⟩ hrest
        (by simp only [length] at hb ⊢; omega)
      simpa [Step.rationed, run, take, hleft, Steps.text, Steps.calls, Steps.events, length]
        using this
    | spend => exact hstep.elim
    | fail fault => exact hstep.elim

/-- A call that cannot be paid for ends the run. Everything before it is done, the call itself is
noted, and nothing after it happens. -/
theorem run_rationed_of_split (p : Progress) (before : List Step) (handoff : Handoff)
    (after : List Step) (h : ∀ step ∈ before, step.Calm)
    (hb : (Steps.calls p.length before).length = p.budget) :
    p.run ((before ++ .call handoff :: after).flatMap Step.rationed) =
      (⟨p.buffer ++ Steps.text before, p.calls ++ Steps.calls p.length (before ++ [.call handoff]),
        p.events ++ Steps.events before, 0⟩,
        some (.budgetExhausted (p.length + (Steps.text before).utf8ByteSize))) := by
  have hlen : (p.buffer ++ Steps.text before).utf8ByteSize =
      p.length + (Steps.text before).utf8ByteSize := String.utf8ByteSize_append
  have hzero : p.budget - (Steps.calls p.length before).length = 0 := by omega
  rw [List.flatMap_append, run_append, run_rationed p before h (Nat.le_of_eq hb), hzero]
  simp [Step.rationed, run, take, length, hlen, Steps.calls_append, Steps.calls]

end Progress

end SqlText
