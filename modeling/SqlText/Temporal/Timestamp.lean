import SqlText.Temporal.Date
import SqlText.Temporal.Time

/-!
# Timestamps

A date and a time of day without zone. In JSON the two are joined by the letter T, in SQL text by a
space; only the first form is read.
-/

namespace SqlText

/-- A time on a day. -/
structure Timestamp where
  date : Date
  time : Time
  deriving DecidableEq

namespace Timestamp

/-- Date and time joined by a character. -/
def joined (separator : Char) (t : Timestamp) : String :=
  String.ofList (t.date.chars ++ separator :: t.time.chars)

/-- The form exchanged in JSON. -/
def isoText (t : Timestamp) : String :=
  t.joined 'T'

/-- The form written in SQL text. -/
def text (t : Timestamp) : String :=
  t.joined ' '

/-- Reads a date and a time with its seconds, joined by the letter T. -/
def ofChars? (input : List Char) : Option Timestamp :=
  match input.span (· ≠ 'T') with
  | (date, 'T' :: time) => do return ⟨← Date.ofChars? date, ← Time.ofFullChars? time⟩
  | _ => none

/-- Reads the exchanged form of a timestamp. -/
def parse? (text : String) : Option Timestamp :=
  ofChars? text.toList

end Timestamp

end SqlText
