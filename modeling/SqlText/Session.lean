import SqlText.Render.Renderer

/-!
# Sessions

A session holds a text that grows and the query renderer in use. Its commands write to the text,
render fragments into it, or replace the renderer. A rendering that fails leaves in the text what it
had written. Of a renderer nothing carries over from one command to the next but the budget of calls
that is left.
-/

namespace SqlText

/-- The state of a session. -/
structure Session where
  renderer : Option QueryRenderer
  buffer : String
  /-- How many calls a limited renderer still answers. -/
  budget : Nat
  deriving DecidableEq

/-- What a session is told to do. -/
inductive Command where
  /-- Replaces the query renderer; a limited one starts with its whole budget. -/
  | configure (renderer : Option QueryRenderer)
  /-- Appends text. -/
  | write (text : String)
  /-- Appends a character. -/
  | writeChar (c : Char)
  /-- Appends a separator, except at the first position. -/
  | writeSeparator (position : Nat) (separator : String)
  /-- Renders a fragment to the end of the text. -/
  | render (fragment : Fragment)
  /-- Renders an expression to a text of its own. -/
  | renderToText (expr : Expr)
  /-- Empties the text. -/
  | reset
  /-- Empties the text and hands it out. -/
  | take

/-- What a command did besides changing the state. -/
structure Report where
  fault : Option Fault
  /-- The calls of the configured renderer. -/
  calls : List CallRecord
  events : List Event
  /-- The text that was handed out. -/
  text : Option String
  deriving DecidableEq

namespace Report

/-- Nothing to report. -/
def empty : Report := ⟨none, [], [], none⟩

end Report

namespace Session

/-- No renderer is configured and nothing is written. -/
def start : Session := ⟨none, "", 0⟩

/-- Replaces the query renderer. -/
def configure (s : Session) (renderer : Option QueryRenderer) : Session :=
  match renderer with
  | some (.limited budget) => { s with renderer := renderer, budget := budget }
  | _ => { s with renderer := renderer }

/-- Appends text. -/
def write (s : Session) (text : String) : Session :=
  { s with buffer := s.buffer ++ text }

/-- Renders a fragment to the end of the text. -/
def render (s : Session) (fragment : Fragment) : Session × Report :=
  let (p, fault) := (Progress.start s.buffer s.budget).run (fragment.steps s.renderer)
  ({ s with buffer := p.buffer, budget := p.budget }, ⟨fault, p.calls, p.events, none⟩)

/-- Renders an expression to a text of its own. A success is announced last. -/
def renderToText (s : Session) (expr : Expr) : Session × Report :=
  let (p, fault) := (Progress.start "" s.budget).run (expr.layout.steps s.renderer)
  let s := { s with budget := p.budget }
  match fault with
  | some fault => (s, ⟨some fault, p.calls, p.events, none⟩)
  | none => (s, ⟨none, p.calls, p.events ++ [.finished p.length], some p.buffer⟩)

/-- Obeys a command. -/
def step (s : Session) : Command → Session × Report
  | .configure renderer => (s.configure renderer, .empty)
  | .write text => (s.write text, .empty)
  | .writeChar c => (s.write c.toString, .empty)
  | .writeSeparator position separator =>
    (if position = 0 then s else s.write separator, .empty)
  | .render fragment => s.render fragment
  | .renderToText expr => s.renderToText expr
  | .reset => ({ s with buffer := "" }, .empty)
  | .take => ({ s with buffer := "" }, { Report.empty with text := some s.buffer })

/-- The calls that a recording renderer shows for a report. -/
def recorded (s : Session) (report : Report) : List CallRecord :=
  if s.renderer = some .recording then report.calls else []

/-- A description of the session's configuration. -/
def describe (s : Session) : String :=
  "ExpressionDeparser \x7b custom_statements: " ++ (if s.renderer.isSome then "true" else "false") ++
    ", order_by: OrderByDeparser \x7d"

end Session

end SqlText
