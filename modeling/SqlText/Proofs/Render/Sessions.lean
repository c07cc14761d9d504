import SqlText.Proofs.Render.BuiltIn

/-!
# Commands that append

Some commands only add to the end of a session's text, whether they succeed or fail. Such a command
neither reads nor changes what is there (`Session.step_eq_behind`) : it does what it would do on an
empty text with the same renderer and the same budget, and the offsets it reports are counted from
the end of the text that was there.

`Session.trace_eq_stacked` is the statement for a whole run. All commands of a list are obeyed apart
from one another, each on an empty text, and only the renderer and its budget are passed on. The
outcomes, set one behind the other, are those of the run.
-/

namespace SqlText

/-- Whether a command only adds to the text of the session. -/
def Command.appends : Command → Bool
  | .configure _ => true
  | .write _ => true
  | .writeChar _ => true
  | .writeSeparator _ _ => true
  | .render _ => true
  | .renderToText _ => false
  | .reset => false
  | .take => false

/-- The same report behind `n` more bytes. -/
def Report.shift (n : Nat) (report : Report) : Report :=
  { report with
    fault := report.fault.map (Fault.shift n)
    calls := report.calls.map (CallRecord.shift n) }

/-- To start from a text is to start from nothing behind that text. -/
theorem Progress.start_eq_behind (text : String) (budget : Nat) :
    Progress.start text budget = (Progress.start "" budget).behind text := by
  simp [start, behind]

namespace Session

/-! ## One command -/

/-- The same session with an empty text. -/
def emptied (s : Session) : Session :=
  { s with buffer := "" }

/-- An outcome behind a text : the text stands in front, and offsets are counted from its end. -/
def outcomeBehind (text : String) (outcome : Session × Report) : Session × Report :=
  ({ outcome.1 with buffer := text ++ outcome.1.buffer }, outcome.2.shift text.utf8ByteSize)

theorem render_eq_behind (s : Session) (fragment : Fragment) :
    s.render fragment = outcomeBehind s.buffer (s.emptied.render fragment) := by
  have hplaceless : ∀ step ∈ fragment.steps s.renderer, step.Placeless := fun step hs =>
    (fragment.allowedBy_of_mem_steps s.renderer step hs).placeless
  have hrun := (Progress.start "" s.budget).run_behind s.buffer _ hplaceless
  rw [← Progress.start_eq_behind] at hrun
  simp only [render, hrun]
  rfl

theorem configure_eq_behind (s : Session) (renderer : Option QueryRenderer) :
    (s.configure renderer, Report.empty) =
      outcomeBehind s.buffer (s.emptied.configure renderer, Report.empty) := by
  have hbuffer : s.buffer ++ "" = s.buffer := String.append_empty
  unfold configure
  split <;> simp only [outcomeBehind, emptied, hbuffer] <;> rfl

theorem write_eq_behind (s : Session) (text : String) :
    (s.write text, Report.empty) = outcomeBehind s.buffer (s.emptied.write text, Report.empty) := by
  have htext : "" ++ text = text := String.empty_append
  simp only [write, emptied, outcomeBehind, htext]
  rfl

/-- A command that appends does what it does on an empty text, behind the text that is there. -/
theorem step_eq_behind (s : Session) {command : Command} (h : command.appends) :
    s.step command = outcomeBehind s.buffer (s.emptied.step command) := by
  cases command with
  | configure renderer => exact s.configure_eq_behind renderer
  | write text => exact s.write_eq_behind text
  | writeChar c => exact s.write_eq_behind c.toString
  | writeSeparator position separator =>
    by_cases hp : position = 0
    · simp only [step, hp, if_true, outcomeBehind, emptied, String.append_empty]
      rfl
    · simp only [step, hp, if_false]
      exact s.write_eq_behind separator
  | render fragment => exact s.render_eq_behind fragment
  | renderToText expr => cases h
  | reset => cases h
  | take => cases h

/-! ## A run of commands -/

/-- The outcomes of commands that are obeyed one after another. -/
def trace (s : Session) : List Command → List (Session × Report)
  | [] => []
  | command :: rest =>
    let outcome := s.step command
    outcome :: outcome.1.trace rest

/-- The outcomes of commands when the text is emptied before each of them : what passes from one
command to the next is the renderer and its budget. -/
def traceApart (s : Session) : List Command → List (Session × Report)
  | [] => []
  | command :: rest =>
    let outcome := s.emptied.step command
    outcome :: outcome.1.traceApart rest

/-- Outcomes set one behind the other, the first behind a text. -/
def stacked (text : String) : List (Session × Report) → List (Session × Report)
  | [] => []
  | outcome :: rest => outcomeBehind text outcome :: stacked (text ++ outcome.1.buffer) rest

/-- Obeyed apart from one another, commands do not see the text. -/
theorem traceApart_outcomeBehind (text : String) (outcome : Session × Report)
    (commands : List Command) :
    (outcomeBehind text outcome).1.traceApart commands = outcome.1.traceApart commands := by
  cases commands <;> rfl

/-- A run of commands that append, failing or not : each keeps the text before it and does what it
does on an empty text, with the renderer in use and the budget that is left, and all offsets that it
reports are shifted by the length of the text before it. -/
theorem trace_eq_stacked (s : Session) (commands : List Command)
    (h : ∀ command ∈ commands, command.appends) :
    s.trace commands = stacked s.buffer (s.traceApart commands) := by
  induction commands generalizing s with
  | nil => rfl
  | cons command rest ih =>
    obtain ⟨hcommand, hrest⟩ := List.forall_mem_cons.1 h
    have hstep := s.step_eq_behind hcommand
    rw [trace, traceApart, stacked]
    refine List.cons_eq_cons.2 ⟨hstep, ?_⟩
    rw [ih _ hrest, hstep, traceApart_outcomeBehind]
    rfl

/-- A rendering within its budget of calls, one that exceeds what is left of it, one that another
renderer refuses, and a recorded one behind what they left in the text. -/
theorem trace_eq_stacked_failing :
    let query := Query.plain (Select.ofItems [.ofExpr (.column "a")])
    let expr := Expr.node (.subQuery ⟨query, [⟨"t", [], query⟩], true⟩)
    let commands : List Command :=
      [.configure (some (.limited 3)), .render (.expr expr), .writeSeparator 1 ", ",
        .render (.items (.list [expr])), .writeChar ';', .configure (some .failing),
        .render (.orderKey ⟨expr, none, none⟩), .configure (some .recording), .write " ",
        .render (.list [expr] false)]
    let trace := Session.trace ⟨none, "é ", 0⟩ commands
    (∀ command ∈ commands, command.appends) ∧
      trace.filterMap (fun outcome => outcome.2.fault) =
        [.budgetExhausted 59, .unsupportedCommonTable] ∧
      trace.getLast?.map (fun outcome => (outcome.1.buffer, outcome.2.calls)) =
        some ("é (WITH t AS (SELECT a) SELECT a), ((WITH t AS (SELECT a) ;(WITH  " ++
          "(WITH t AS (SELECT a) SELECT a)", [⟨.commonTable "t", 73⟩, ⟨.query false, 89⟩]) := by
  intro query expr commands trace
  have h : ∀ command ∈ commands, command.appends := by decide
  refine ⟨h, ?_⟩
  rw [show trace = _ from trace_eq_stacked _ commands h]
  decide +kernel

end Session

end SqlText
