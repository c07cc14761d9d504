import SqlText.Json.Numeral

/-!
# Reading JSON text

A reader for the JSON grammar on lists of characters. Each function takes the characters still to be
read and gives back a result with the rest. Of two members with one key the later one counts, a
surrogate pair of escapes is one character, and an unpaired surrogate is refused. So is a number out
of the range of floating point.
-/

namespace SqlText.Json

/-- Drops blanks: space, tab, line feed and carriage return. -/
def skipBlanks (input : List Char) : List Char :=
  input.dropWhile fun c => c = ' ' || c = '\t' || c = '\n' || c = '\r'

/-- Drops `word` from the front of the input. -/
def expect : List Char → List Char → Option (List Char)
  | [], input => some input
  | c :: word, d :: input => if c = d then expect word input else none
  | _ :: _, [] => none

/-! ## Texts -/

/-- The character that a one-letter escape stands for. -/
def escaped? : Char → Option Char
  | '"' => some '"'
  | '\\' => some '\\'
  | '/' => some '/'
  | 'b' => some '\x08'
  | 'f' => some '\x0c'
  | 'n' => some '\n'
  | 'r' => some '\r'
  | 't' => some '\t'
  | _ => none

/-- Whether a code unit opens a surrogate pair. -/
def isHighSurrogate (unit : Nat) : Bool :=
  0xD800 ≤ unit && unit < 0xDC00

/-- Whether a code unit closes a surrogate pair. -/
def isLowSurrogate (unit : Nat) : Bool :=
  0xDC00 ≤ unit && unit < 0xE000

/-- The character of a surrogate pair. -/
def pairChar (high low : Nat) : Char :=
  Char.ofNat (0x10000 + (high - 0xD800) * 0x400 + (low - 0xDC00))

/-- Reads a text behind its opening quote; `done` holds what was read, last character first. -/
def readText (done : List Char) : List Char → Option (String × List Char)
  | [] => none
  | '"' :: rest => some (String.ofList done.reverse, rest)
  | '\\' :: 'u' :: a :: b :: c :: d :: rest =>
    match Digits.hexValue? [a, b, c, d] with
    | none => none
    | some unit =>
      if isLowSurrogate unit then none
      else if isHighSurrogate unit then
        match rest with
        | '\\' :: 'u' :: e :: f :: g :: h :: rest' =>
          match Digits.hexValue? [e, f, g, h] with
          | none => none
          | some low =>
            if isLowSurrogate low then readText (pairChar unit low :: done) rest' else none
        | _ => none
      else readText (Char.ofNat unit :: done) rest
  | '\\' :: c :: rest =>
    match escaped? c with
    | none => none
    | some e => readText (e :: done) rest
  | c :: rest => if c.toNat < 0x20 then none else readText (c :: done) rest

/-! ## Numbers -/

/-- Reads a number, which must be in range. -/
def readNumber (input : List Char) : Option (Json × List Char) := do
  let (numeral, rest) ← Numeral.read input
  return (← numeral.toJson?, rest)

/-! ## Values -/

mutual

/-- Reads a value. Every call consumes a character or passes to a call that does, so `fuel` twice
the length of the input is enough. -/
def readValue (fuel : Nat) (input : List Char) : Option (Json × List Char) :=
  match fuel with
  | 0 => none
  | fuel + 1 =>
    match skipBlanks input with
    | 'n' :: rest => (expect ['u', 'l', 'l'] rest).map (.null, ·)
    | 't' :: rest => (expect ['r', 'u', 'e'] rest).map (.bool true, ·)
    | 'f' :: rest => (expect ['a', 'l', 's', 'e'] rest).map (.bool false, ·)
    | '"' :: rest => (readText [] rest).map fun (text, rest) => (.str text, rest)
    | '[' :: rest =>
      match skipBlanks rest with
      | ']' :: rest => some (.arr [], rest)
      | rest => readItems fuel [] rest
    | '\x7b' :: rest =>
      match skipBlanks rest with
      | '\x7d' :: rest => some (.obj [], rest)
      | rest => readMembers fuel [] rest
    | rest => readNumber rest

/-- Reads the items of an array; `done` holds those read, last item first. -/
def readItems (fuel : Nat) (done : List Json) (input : List Char) : Option (Json × List Char) :=
  match fuel with
  | 0 => none
  | fuel + 1 =>
    match readValue fuel input with
    | none => none
    | some (item, rest) =>
      match skipBlanks rest with
      | ',' :: rest => readItems fuel (item :: done) rest
      | ']' :: rest => some (.arr (item :: done).reverse, rest)
      | _ => none

/-- Reads the members of an object; `done` holds those read. -/
def readMembers (fuel : Nat) (done : List (String × Json)) (input : List Char) :
    Option (Json × List Char) :=
  match fuel with
  | 0 => none
  | fuel + 1 =>
    match skipBlanks input with
    | '"' :: rest =>
      match readText [] rest with
      | none => none
      | some (key, rest) =>
        match skipBlanks rest with
        | ':' :: rest =>
          match readValue fuel rest with
          | none => none
          | some (value, rest) =>
            match skipBlanks rest with
            | ',' :: rest => readMembers fuel (setMember key value done) rest
            | '\x7d' :: rest => some (.obj (setMember key value done), rest)
            | _ => none
        | _ => none
    | _ => none

end

/-- Reads a text that holds one JSON value and blanks around it. -/
def parse? (text : String) : Option Json :=
  let input := text.toList
  match readValue (2 * input.length + 2) input with
  | some (value, rest) => if skipBlanks rest = [] then some value else none
  | none => none

end SqlText.Json
