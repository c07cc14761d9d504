/-!
# Steps of a rendering

A rendering is a list of steps: text is written, events are announced, calls of the query renderer
are noted, and a step may fail. Executing the list stops at the first failure; what was written
before it stays written.

Lengths and offsets are counted in bytes of the text's encoding.
-/

namespace SqlText

/-- What is handed to a query renderer. -/
inductive Handoff where
  /-- The body of a query, a plain select or a combination of queries. -/
  | query (compound : Bool)
  /-- A common table. -/
  | commonTable (name : String)
  deriving DecidableEq

/-- A call of the query renderer, with the length of the text before it. -/
structure CallRecord where
  handoff : Handoff
  offset : Nat
  deriving DecidableEq

/-- Why a rendering fails. Only a query renderer can make it fail. -/
inductive Fault where
  | unsupportedQuery
  | unsupportedCommonTable
  | budgetExhausted (offset : Nat)
  | unformattable
  deriving DecidableEq

namespace Fault

/-- What a query renderer says of its failure; a formatting failure has no words of its own. -/
def reason? : Fault → Option String
  | unsupportedQuery => some "unsupported body"
  | unsupportedCommonTable => some "unsupported WITH item"
  | budgetExhausted offset => some ("budget exhausted at " ++ toString offset)
  | unformattable => none

/-- The message that is reported for a failure. -/
def message (fault : Fault) : String :=
  match fault.reason? with
  | some reason => "statement deparser failed: " ++ reason
  | none => "formatting error: an error occurred when formatting an argument"

end Fault

/-- What a rendering announces while it runs. -/
inductive Event where
  /-- Something is about to be handed to the query renderer. -/
  | handingOver (handoff : Handoff)
  /-- An expression was rendered to a text of this length. -/
  | finished (length : Nat)
  deriving DecidableEq

namespace Event

/-- The words of an event. -/
def message : Event → String
  | handingOver (.query _) => "handing sub-select body to statement deparser"
  | handingOver (.commonTable _) => "handing WITH item to statement deparser"
  | finished _ => "expression deparsed"

/-- How important an event is. -/
def level : Event → String
  | handingOver _ => "TRACE"
  | finished _ => "DEBUG"

end Event

/-- A step of a rendering. -/
inductive Step where
  /-- Appends text. -/
  | write (text : String)
  /-- Announces an event. -/
  | announce (event : Event)
  /-- Notes a call of the query renderer. -/
  | call (handoff : Handoff)
  /-- Takes one call from the budget, or fails if none is left. -/
  | spend
  /-- Fails. -/
  | fail (fault : Fault)
  deriving DecidableEq

/-- How far a rendering has come. -/
structure Progress where
  buffer : String
  calls : List CallRecord
  events : List Event
  /-- How many calls the query renderer still answers, if it counts them. -/
  budget : Nat
  deriving DecidableEq

namespace Progress

/-- Nothing noted yet, and the given text written. -/
def start (buffer : String) (budget : Nat) : Progress :=
  ⟨buffer, [], [], budget⟩

/-- The length of the text written so far. -/
def length (p : Progress) : Nat :=
  p.buffer.utf8ByteSize

/-- Takes a step. -/
def take (p : Progress) : Step → Except Fault Progress
  | .write text => .ok { p with buffer := p.buffer ++ text }
  | .announce event => .ok { p with events := p.events ++ [event] }
  | .call handoff => .ok { p with calls := p.calls ++ [⟨handoff, p.length⟩] }
  | .spend =>
    match p.budget with
    | 0 => .error (.budgetExhausted p.length)
    | budget + 1 => .ok { p with budget := budget }
  | .fail fault => .error fault

/-- Takes steps up to the first that fails. -/
def run (p : Progress) : List Step → Progress × Option Fault
  | [] => (p, none)
  | step :: rest =>
    match p.take step with
    | .ok p' => p'.run rest
    | .error fault => (p, some fault)

end Progress

end SqlText
