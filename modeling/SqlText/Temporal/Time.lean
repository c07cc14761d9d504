import SqlText.Digits

/-!
# Times of day

A time of day down to the nanosecond. Any minute may have a leap second, written as second 60.

A time is written `HH:MM:SS` with a fraction of three, six or nine digits, the fewest that are
exact, and none for whole seconds. When a time is read, the seconds may be missing and a fraction
may have any number of digits, of which the first nine count.
-/

namespace SqlText

/-- A time of day. -/
structure Time where
  hour : Nat
  minute : Nat
  second : Nat
  nanosecond : Nat
  hour_lt : hour < 24
  minute_lt : minute < 60
  second_le : second ≤ 60
  nanosecond_lt : nanosecond < 1000000000
  deriving DecidableEq

namespace Time

/-- The time with the given numbers, if there is one. -/
def ofParts? (hour minute second nanosecond : Nat) : Option Time :=
  if hh : hour < 24 then
    if hm : minute < 60 then
      if hs : second ≤ 60 then
        if hn : nanosecond < 1000000000 then
          some ⟨hour, minute, second, nanosecond, hh, hm, hs, hn⟩
        else none
      else none
    else none
  else none

/-! ## Writing -/

/-- The fraction of a second: none, or a point and three, six or nine digits. -/
def fractionChars (nanosecond : Nat) : List Char :=
  if nanosecond = 0 then []
  else if nanosecond % 1000000 = 0 then '.' :: Digits.fixed 3 (nanosecond / 1000000)
  else if nanosecond % 1000 = 0 then '.' :: Digits.fixed 6 (nanosecond / 1000)
  else '.' :: Digits.fixed 9 nanosecond

/-- A time as characters: hour, minute and second with colons between them, and the fraction. -/
def chars (t : Time) : List Char :=
  Digits.fixed 2 t.hour ++ ':' :: Digits.fixed 2 t.minute ++ ':' :: Digits.fixed 2 t.second ++
    fractionChars t.nanosecond

/-- A time as text. -/
def text (t : Time) : String :=
  String.ofList t.chars

/-! ## Reading -/

/-- The nanoseconds that fraction digits spell; digits behind the ninth are dropped. -/
def nanosecondOf (digits : List Char) : Nat :=
  Digits.value (digits.take 9) * Nat.pow 10 (9 - digits.length)

/-- Reads the rest of a time behind its seconds: nothing, or a fraction of one digit at least. -/
def readFraction : List Char → Option Nat
  | [] => some 0
  | '.' :: digits => if digits ≠ [] ∧ digits.all Char.isDigit then some (nanosecondOf digits) else none
  | _ => none

/-- Reads the rest of a time behind its minutes: colon, seconds and perhaps a fraction. -/
def readSeconds : List Char → Option (Nat × Nat)
  | ':' :: rest =>
    match Digits.take? 2 rest with
    | some (second, rest) => (readFraction rest).map fun nanosecond => (second, nanosecond)
    | none => none
  | _ => none

/-- Reads hours, colon and minutes, and gives back the rest. -/
def readClock (input : List Char) : Option (Nat × Nat × List Char) :=
  match Digits.take? 2 input with
  | some (hour, ':' :: rest) => (Digits.take? 2 rest).map fun (minute, rest) => (hour, minute, rest)
  | _ => none

/-- Reads a time whose seconds are written. -/
def ofFullChars? (input : List Char) : Option Time :=
  match readClock input with
  | some (hour, minute, rest) =>
    (readSeconds rest).bind fun (second, nanosecond) => ofParts? hour minute second nanosecond
  | none => none

/-- Reads a time; seconds that are not written are zero. -/
def ofChars? (input : List Char) : Option Time :=
  match readClock input with
  | some (hour, minute, []) => ofParts? hour minute 0 0
  | _ => ofFullChars? input

/-- Reads the text of a time. -/
def parse? (text : String) : Option Time :=
  ofChars? text.toList

end Time

end SqlText
