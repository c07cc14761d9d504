import Mathlib.Data.List.TakeWhile
import Mathlib.Logic.Function.Iterate
import SqlText.Proofs.Json.Equality
import SqlText.Proofs.Layout.Normal
import SqlText.Proofs.Text.Scanning

/-!
# Texts that tell values apart

Two kinds of leaves are written in a form that is not the text of a string : the values of the
calendar and the clock, and the targets of casts. Their texts determine them.

* A temporal literal quotes the text that is exchanged for it in JSON, a timestamp with a blank in
  place of the letter T. The quoted text is read back as the value, so that two temporal literals
  with one text are equal (`Temporal.literal_faithful`).
* The text of a data type is a name, numbers in brackets and the brackets of arrays
  (`DataType.Outline`). All three can be read off the text, and the type can be put together from
  them again, but for a scale without precision, which is not written
  (`DataType.sql_eq_iff_normalize_eq`).
-/

namespace SqlText

namespace Text

/-- A text is cut in one way only at the end of its characters of one class. -/
theorem append_inj_of_class {p : Char → Bool} {xs ys rest rest' : List Char} (hx : ∀ c ∈ xs, p c)
    (hy : ∀ c ∈ ys, p c) (hrest : ∀ c ∈ rest.head?, ¬ p c) (hrest' : ∀ c ∈ rest'.head?, ¬ p c)
    (h : xs ++ rest = ys ++ rest') : xs = ys ∧ rest = rest' := by
  have htake : ∀ {zs tail : List Char}, (∀ c ∈ zs, p c) → (∀ c ∈ tail.head?, ¬ p c) →
      (zs ++ tail).takeWhile p = zs := by
    intro zs tail hz htail
    rw [List.takeWhile_append_of_pos hz]
    cases tail with
    | nil => exact List.append_nil zs
    | cons c tail => rw [List.takeWhile_cons_of_neg (htail c rfl), List.append_nil]
  have heq : xs = ys := by rw [← htake hx hrest, h, htake hy hrest']
  exact ⟨heq, List.append_cancel_left (heq ▸ h)⟩

/-- What follows the first of several texts with commas between them. -/
def commaTail : List String → String
  | [] => ""
  | next :: rest => ", " ++ commaSeparated (next :: rest)

theorem commaSeparated_cons (first : String) (rest : List String) :
    commaSeparated (first :: rest) = first ++ commaTail rest := by
  cases rest with
  | nil => simp [commaSeparated, commaTail]
  | cons next rest =>
    rw [commaTail, commaSeparated, String.intercalate_cons_cons, String.append_assoc]
    rfl

theorem commaSeparated_eq_of_commaTail {texts texts' : List String}
    (h : commaTail texts = commaTail texts') : commaSeparated texts = commaSeparated texts' := by
  have hne : ∀ next rest, commaTail (next :: rest) ≠ "" := fun next rest => by simp [commaTail]
  cases texts with
  | nil =>
    cases texts' with
    | nil => rfl
    | cons next' rest' => exact (hne next' rest' h.symm).elim
  | cons next rest =>
    cases texts' with
    | nil => exact (hne next rest h).elim
    | cons next' rest' => exact (String.append_right_inj ", ").1 h

/-- Texts with commas between them bring no other characters than commas and blanks. -/
theorem mem_commaSeparated {texts : List String} {c : Char}
    (h : c ∈ (commaSeparated texts).toList) :
    c = ',' ∨ c = ' ' ∨ ∃ text ∈ texts, c ∈ text.toList := by
  have hcomma : ", ".toList = [',', ' '] := by decide
  induction texts with
  | nil => simp [commaSeparated] at h
  | cons first rest ih =>
    rw [commaSeparated_cons, String.toList_append, List.mem_append] at h
    rcases h with hfirst | hrest
    · exact .inr (.inr ⟨first, List.mem_cons_self, hfirst⟩)
    · cases rest with
      | nil => simp [commaTail] at hrest
      | cons next rest =>
        simp only [commaTail, String.toList_append, hcomma, List.mem_append, List.mem_cons,
          List.not_mem_nil, or_false] at hrest
        rcases hrest with (hc | hc) | hc
        · exact .inl hc
        · exact .inr (.inl hc)
        · rcases ih hc with hc | hc | ⟨text, ht, hc⟩
          · exact .inl hc
          · exact .inr (.inl hc)
          · exact .inr (.inr ⟨text, List.mem_cons_of_mem _ ht, hc⟩)

/-- A comma follows the digits of a number, or nothing. -/
theorem not_isDigit_head_commaTail (texts : List String) :
    ∀ c ∈ (commaTail texts).toList.head?, ¬ c.isDigit := by
  cases texts with
  | nil => simp [commaTail]
  | cons next rest =>
    have hcomma : ", ".toList = [',', ' '] := by decide
    simp [commaTail, hcomma]

/-- Numbers with commas between them can be read off their text. -/
theorem commaSeparated_toString_inj {ns ms : List Nat}
    (h : commaSeparated (ns.map toString) = commaSeparated (ms.map toString)) : ns = ms := by
  have hne : ∀ (n : Nat) (rest : List Nat), commaSeparated ((n :: rest).map toString) ≠ "" := by
    intro n rest hempty
    rw [List.map_cons, commaSeparated_cons, String.append_eq_empty_iff] at hempty
    exact Nat.repr_ne_empty hempty.1
  induction ns generalizing ms with
  | nil =>
    cases ms with
    | nil => rfl
    | cons m ms => exact (hne m ms h.symm).elim
  | cons n ns ih =>
    cases ms with
    | nil => exact (hne n ns h).elim
    | cons m ms =>
      rw [List.map_cons, List.map_cons, commaSeparated_cons, commaSeparated_cons,
        ← String.toList_inj, String.toList_append, String.toList_append] at h
      obtain ⟨hfirst, hrest⟩ := append_inj_of_class (fun _ => isDigit_of_mem_toString)
        (fun _ => isDigit_of_mem_toString) (not_isDigit_head_commaTail _)
        (not_isDigit_head_commaTail _) h
      have hdigits : Nat.toDigits 10 n = Nat.toDigits 10 m := by
        rw [← Nat.toList_repr, ← Nat.toList_repr]
        exact hfirst
      have hnumber : n = m := by
        rw [← Nat.ofDigitChars_ten_toDigits (n := n), hdigits, Nat.ofDigitChars_ten_toDigits]
      rw [hnumber, ih (commaSeparated_eq_of_commaTail (String.toList_inj.1 hrest))]

end Text

/-! ## Temporal literals -/

/-- A text with one character in the place of another. -/
def Text.replaced (old new : Char) (text : String) : String :=
  text.map fun c => if c = old then new else c

/-- The kinds of temporal values. -/
inductive TemporalKind where
  | date
  | time
  | timestamp

namespace TemporalKind

/-- The word in braces in front of the quoted text. -/
def keyword : TemporalKind → String
  | date => "d"
  | time => "t"
  | timestamp => "ts"

/-- How often the letter T occurs in an exchanged text : it joins the two halves of a timestamp. -/
def joints : TemporalKind → Nat
  | timestamp => 1
  | _ => 0

/-- The text to be quoted for an exchanged one : a timestamp has a blank in place of the letter. -/
def toQuoted : TemporalKind → String → String
  | timestamp, text => Text.replaced 'T' ' ' text
  | _, text => text

/-- The text to be exchanged for a quoted one : the letter is put back. -/
def toExchanged : TemporalKind → String → String
  | timestamp, text => Text.replaced ' ' 'T' text
  | _, text => text

theorem keyword_injective : Function.Injective keyword := by
  intro kind kind' h
  cases kind <;> cases kind' <;> first | rfl | exact absurd h (by decide)

theorem blank_not_mem_keyword (kind : TemporalKind) : ' ' ∉ kind.keyword.toList := by
  cases kind <;> decide

end TemporalKind

namespace Temporal

/-- Whether the value is a date, a time or a timestamp. -/
def kind : Temporal → TemporalKind
  | date _ => .date
  | time _ => .time
  | timestamp _ => .timestamp

/-- The text that is exchanged for the value. -/
def exchanged : Temporal → String
  | date value => value.text
  | time value => value.text
  | timestamp value => value.isoText

theorem encode_literal (v : Temporal) : v.literal.encode = v.given v.exchanged := by
  cases v <;> rfl

/-- What is given for a value depends on its kind and on the text alone. -/
theorem given_congr {v w : Temporal} (h : v.kind = w.kind) (text : String) :
    v.given text = w.given text := by
  cases v <;> cases w <;> first | rfl | cases h

end Temporal

theorem Text.replaced_eq_self {old : Char} {chars : List Char} (h : old ∉ chars) (new : Char) :
    chars.map (fun c => if c = old then new else c) = chars := by
  have hsame : ∀ c ∈ chars, (if c = old then new else c) = id c := by
    intro c hc
    exact if_neg (ne_of_mem_of_not_mem hc h)
  rw [List.map_congr_left hsame, List.map_id]

namespace Timestamp

/-- Neither the letter nor the blank that joins a date and a time occurs in them. -/
theorem not_mem_chars (t : Timestamp) {joint : Char} (h : joint = 'T' ∨ joint = ' ') :
    joint ∉ t.date.chars ∧ joint ∉ t.time.chars := by
  constructor
  · intro hc
    rcases t.date.spelling_chars.isDigit_or joint hc with hdate | hdate | hdate <;>
      rcases h with rfl | rfl <;> revert hdate <;> decide
  · intro hc
    rcases t.time.spelling_chars.isDigit_or joint hc with htime | htime | htime <;>
      rcases h with rfl | rfl <;> revert htime <;> decide

/-- The joint of a date and a time can be replaced, and nothing else is. -/
theorem replaced_joined (t : Timestamp) {joint : Char} (h : joint = 'T' ∨ joint = ' ')
    (new : Char) : Text.replaced joint new (t.joined joint) = t.joined new := by
  obtain ⟨hdate, htime⟩ := t.not_mem_chars h
  rw [← String.toList_inj, Text.replaced, String.toList_map, joined, joined, String.toList_ofList,
    String.toList_ofList, List.map_append, List.map_cons, Text.replaced_eq_self hdate,
    Text.replaced_eq_self htime, if_pos rfl]

theorem replaced_isoText (t : Timestamp) : Text.replaced 'T' ' ' t.isoText = t.text :=
  t.replaced_joined (.inl rfl) ' '

theorem replaced_text (t : Timestamp) : Text.replaced ' ' 'T' t.text = t.isoText :=
  t.replaced_joined (.inr rfl) 'T'

theorem count_isoText (t : Timestamp) : t.isoText.toList.count 'T' = 1 := by
  obtain ⟨hdate, htime⟩ := t.not_mem_chars (.inl rfl)
  rw [isoText, joined, String.toList_ofList, List.count_append, List.count_cons_self,
    List.count_eq_zero.2 hdate, List.count_eq_zero.2 htime]

end Timestamp

namespace Temporal

theorem count_exchanged (v : Temporal) : v.exchanged.toList.count 'T' = v.kind.joints := by
  cases v with
  | date value =>
    rw [exchanged, Date.text, String.toList_ofList]
    exact List.count_eq_zero.2 fun hc => value.spelling_chars.ne_T _ hc rfl
  | time value =>
    rw [exchanged, Time.text, String.toList_ofList]
    refine List.count_eq_zero.2 fun hc => ?_
    rcases value.spelling_chars.isDigit_or _ hc with h | h | h <;> revert h <;> decide
  | timestamp value => exact value.count_isoText

theorem toExchanged_toQuoted (v : Temporal) :
    v.kind.toExchanged (v.kind.toQuoted v.exchanged) = v.exchanged := by
  cases v with
  | timestamp value =>
    rw [kind, TemporalKind.toQuoted, TemporalKind.toExchanged, exchanged, value.replaced_isoText,
      value.replaced_text]
  | _ => rfl

/-- The literal quotes the exchanged text. -/
theorem text_literal (v : Temporal) :
    v.literal.text = Literal.escapeForm v.kind.keyword (v.kind.toQuoted v.exchanged) := by
  cases v with
  | timestamp value =>
    rw [kind, TemporalKind.toQuoted, exchanged, value.replaced_isoText]
    rfl
  | _ => rfl

/-- Kind and quoted text can be read off the escape form. -/
theorem escapeForm_inj {kind kind' : TemporalKind} {text text' : String}
    (h : Literal.escapeForm kind.keyword text = Literal.escapeForm kind'.keyword text') :
    kind = kind' ∧ text = text' := by
  have hquote : " '".toList = [' ', '\x27'] := by decide
  simp only [Literal.escapeForm, String.append_assoc, String.append_right_inj] at h
  rw [← String.toList_inj, String.toList_append, String.toList_append (s := kind'.keyword)] at h
  -- The keyword ends where the first blank is.
  obtain ⟨hkeyword, hrest⟩ := Text.append_inj_of_class (p := (· ≠ ' '))
    (fun c hc => by simpa using ne_of_mem_of_not_mem hc kind.blank_not_mem_keyword)
    (fun c hc => by simpa using ne_of_mem_of_not_mem hc kind'.blank_not_mem_keyword)
    (by simp [hquote]) (by simp [hquote]) h
  rw [String.toList_inj, String.append_right_inj, String.append_left_inj] at hrest
  exact ⟨TemporalKind.keyword_injective (String.toList_inj.1 hkeyword), hrest⟩

theorem decode_exchanged (v : Temporal) :
    Literal.decode (v.given v.exchanged) = some v.literal := by
  rw [← encode_literal]
  exact TreeType.literal.codec.decode_encode v.literal

theorem literal_eq_of_text_eq {v w : Temporal} (h : v.literal.text = w.literal.text) :
    v.literal = w.literal := by
  rw [text_literal, text_literal] at h
  obtain ⟨hkind, hquoted⟩ := escapeForm_inj h
  have hexchanged : v.exchanged = w.exchanged := by
    rw [← toExchanged_toQuoted, hquoted, hkind, toExchanged_toQuoted]
  have hread := v.decode_exchanged
  rw [given_congr hkind, hexchanged, decode_exchanged] at hread
  exact (Option.some.inj hread).symm

/-- The text of a temporal literal quotes the text that is exchanged for it, with a blank in place
of the one letter T of a timestamp, behind its keyword and in braces. The quoted text, with the
letter put back, is read as the literal again. So the texts of temporal literals are equal just if
the literals are. -/
theorem literal_faithful (v w : Temporal) :
    (∃ exchanged : String, v.literal.encode = v.given exchanged ∧
      exchanged.toList.count 'T' = v.kind.joints ∧
      v.literal.text =
        "\x7b" ++ v.kind.keyword ++ " '" ++ v.kind.toQuoted exchanged ++ "'\x7d" ∧
      Literal.decode (v.given (v.kind.toExchanged (v.kind.toQuoted exchanged))) =
        some v.literal) ∧
    (v.literal.text = w.literal.text ↔ v.literal = w.literal) := by
  refine ⟨⟨v.exchanged, v.encode_literal, v.count_exchanged, v.text_literal, ?_⟩,
    literal_eq_of_text_eq, congrArg Literal.text⟩
  rw [toExchanged_toQuoted, decode_exchanged]

/-- A leap second of the year before the year zero. -/
example :
    let date : Date := ⟨-1, 12, 31, by decide, by decide, by decide⟩
    let time : Time := ⟨23, 59, 60, 1, by decide, by decide, by decide, by decide⟩
    (timestamp ⟨date, time⟩).literal.text = "\x7bts '-0001-12-31 23:59:60.000000001'\x7d" := by
  decide +kernel

end Temporal

/-! ## Data types -/

namespace DataType

/-- Whether no part of a type is given by its text alone. -/
def isListed : DataType → Bool
  | array element => element.isListed
  | custom _ => false
  | _ => true

/-- What the text of a type consists of : a name, the numbers in brackets behind it, and how often
arrays are formed. -/
@[ext] structure Outline where
  name : String
  numbers : List Nat
  depth : Nat

/-- The numbers of a type with precision and scale; a scale alone is no number of it. -/
def precisionNumbers (precision scale : Option UInt16) : List Nat :=
  precision.toList.flatMap fun p => p.toNat :: scale.toList.map UInt16.toNat

/-- The outline of a type. -/
def outline : DataType → Outline
  | decimal precision scale => ⟨"DECIMAL", precisionNumbers precision scale, 0⟩
  | numeric precision scale => ⟨"NUMERIC", precisionNumbers precision scale, 0⟩
  | char length => ⟨"CHAR", length.toList.map UInt32.toNat, 0⟩
  | varchar length => ⟨"VARCHAR", length.toList.map UInt32.toNat, 0⟩
  | varbinary length => ⟨"VARBINARY", length.toList.map UInt32.toNat, 0⟩
  | array element => { element.outline with depth := element.outline.depth + 1 }
  | type => ⟨type.sql, [], 0⟩

namespace Outline

/-- Numbers in brackets; nothing if there are none. -/
def numbersText (numbers : List Nat) : String :=
  if numbers.isEmpty then ""
  else Text.bracketed (Text.commaSeparated (numbers.map toString))

/-- The text of an outline, from which all three components can be read off. -/
def text (o : Outline) : String :=
  o.name ++ numbersText o.numbers ++ String.join (List.replicate o.depth "[]")

/-- The type with a given name and given numbers; a name that is not listed is a type by itself. -/
def base : String → List Nat → DataType
  | "SMALLINT", _ => smallint
  | "INTEGER", _ => integer
  | "BIGINT", _ => bigint
  | "REAL", _ => real
  | "DOUBLE PRECISION", _ => double
  | "DECIMAL", numbers => decimal (numbers[0]?.map UInt16.ofNat) (numbers[1]?.map UInt16.ofNat)
  | "NUMERIC", numbers => numeric (numbers[0]?.map UInt16.ofNat) (numbers[1]?.map UInt16.ofNat)
  | "CHAR", numbers => char (numbers[0]?.map UInt32.ofNat)
  | "VARCHAR", numbers => varchar (numbers[0]?.map UInt32.ofNat)
  | "TEXT", _ => DataType.text
  | "BLOB", _ => blob
  | "VARBINARY", numbers => varbinary (numbers[0]?.map UInt32.ofNat)
  | "DATE", _ => date
  | "TIME", _ => time
  | "TIMESTAMP", _ => timestamp
  | "INTERVAL", _ => interval
  | "BOOLEAN", _ => boolean
  | "JSON", _ => json
  | "UUID", _ => uuid
  | name, _ => custom name

/-- The type with a given outline. -/
def type (o : Outline) : DataType :=
  array^[o.depth] (base o.name o.numbers)

end Outline

theorem withPrecision_eq (name : String) (precision scale : Option UInt16) :
    withPrecision name precision scale =
      name ++ Outline.numbersText (precisionNumbers precision scale) := by
  cases precision <;> cases scale <;>
    simp [withPrecision, precisionNumbers, Outline.numbersText, Text.bracketed,
      Text.commaSeparated, String.append_assoc]

theorem withLength_eq (name : String) (length : Option UInt32) :
    withLength name length = name ++ Outline.numbersText (length.toList.map UInt32.toNat) := by
  cases length <;>
    simp [withLength, Outline.numbersText, Text.bracketed, Text.commaSeparated,
      String.append_assoc]

/-- The text of a type is that of its outline. -/
theorem sql_eq_text_outline (type : DataType) : type.sql = type.outline.text := by
  have hzero : ∀ name numbers, Outline.text ⟨name, numbers, 0⟩ =
      name ++ Outline.numbersText numbers := fun name numbers => String.append_empty
  induction type with
  | decimal precision scale => rw [sql, withPrecision_eq, outline, hzero]
  | numeric precision scale => rw [sql, withPrecision_eq, outline, hzero]
  | char length => rw [sql, withLength_eq, outline, hzero]
  | varchar length => rw [sql, withLength_eq, outline, hzero]
  | varbinary length => rw [sql, withLength_eq, outline, hzero]
  | array element ih =>
    rw [sql, ih, outline, Outline.text, Outline.text, List.replicate_succ', String.join_append,
      ← String.append_assoc]
    simp
  | _ => exact (String.append_empty.trans String.append_empty).symm

/-- A type can be put together from its outline, but for a scale without precision. -/
theorem type_outline {type : DataType} (h : type.isListed) :
    type.outline.type = type.normalize := by
  induction type with
  | decimal precision scale =>
    cases precision <;> cases scale <;>
      simp [outline, precisionNumbers, Outline.type, Outline.base, normalize]
  | numeric precision scale =>
    cases precision <;> cases scale <;>
      simp [outline, precisionNumbers, Outline.type, Outline.base, normalize]
  | char length => cases length <;> simp [outline, Outline.type, Outline.base, normalize]
  | varchar length => cases length <;> simp [outline, Outline.type, Outline.base, normalize]
  | varbinary length => cases length <;> simp [outline, Outline.type, Outline.base, normalize]
  | array element ih =>
    have helement := ih h
    rw [Outline.type] at helement
    rw [Outline.type, outline, Function.iterate_succ_apply', helement, normalize]
  | custom name => cases h
  | _ => rfl

namespace Outline

/-- The characters of a name, up to the first bracket. -/
def isNameChar (c : Char) : Bool := c ≠ '(' && c ≠ '['

theorem head_numbersText (numbers : List Nat) :
    ∀ c ∈ (numbersText numbers).toList.head?, c = '(' := by
  have hopening : "(".toList = ['('] := by decide
  cases numbers with
  | nil => simp [numbersText]
  | cons n rest => simp [numbersText, Text.bracketed, hopening]

/-- No square bracket stands among the numbers. -/
theorem ne_of_mem_numbersText {numbers : List Nat} {c : Char}
    (h : c ∈ (numbersText numbers).toList) : c ≠ '[' := by
  have hopening : "(".toList = ['('] := by decide
  have hclosing : ")".toList = [')'] := by decide
  rintro rfl
  unfold numbersText at h
  split_ifs at h
  · simp at h
  · simp only [Text.bracketed, String.toList_append, hopening, hclosing, List.mem_append,
      List.mem_singleton] at h
    rcases h with (h | h) | h
    · exact absurd h (by decide)
    · rcases Text.mem_commaSeparated h with h | h | ⟨text, ht, hc⟩
      · exact absurd h (by decide)
      · exact absurd h (by decide)
      · obtain ⟨n, -, rfl⟩ := List.mem_map.1 ht
        exact absurd (Text.isDigit_of_mem_toString hc) (by decide)
    · exact absurd h (by decide)

theorem numbersText_inj {numbers numbers' : List Nat}
    (h : numbersText numbers = numbersText numbers') : numbers = numbers' := by
  have hne : ∀ n rest, numbersText (n :: rest) ≠ "" := fun n rest => by
    simp [numbersText, Text.bracketed]
  cases numbers with
  | nil =>
    cases numbers' with
    | nil => rfl
    | cons n rest => exact (hne n rest h.symm).elim
  | cons n rest =>
    cases numbers' with
    | nil => exact (hne n rest h).elim
    | cons n' rest' =>
      have hlist := (String.append_right_inj "(").1 ((String.append_left_inj ")").1 h)
      exact Text.commaSeparated_toString_inj hlist

theorem head_brackets (depth : Nat) :
    ∀ c ∈ (String.join (List.replicate depth "[]")).toList.head?, c = '[' := by
  have hbrackets : "[]".toList = ['[', ']'] := by decide
  cases depth with
  | zero => simp
  | succ depth => simp [List.replicate_succ, hbrackets]

theorem brackets_inj {depth depth' : Nat}
    (h : String.join (List.replicate depth "[]") = String.join (List.replicate depth' "[]")) :
    depth = depth' := by
  have hbrackets : "[]".toList = ['[', ']'] := by decide
  have hlength : ∀ k, (String.join (List.replicate k "[]")).toList.length = k * 2 := by
    intro k
    simp [String.toList_join, List.length_flatMap, hbrackets]
  have hdepths := congrArg (fun text => text.toList.length) h
  simp only [hlength] at hdepths
  omega

/-- An outline can be read off its text if its name has no brackets. -/
theorem text_inj {o o' : Outline} (ho : ∀ c ∈ o.name.toList, isNameChar c)
    (ho' : ∀ c ∈ o'.name.toList, isNameChar c) (h : o.text = o'.text) : o = o' := by
  have hnumbers : ∀ o : Outline, ∀ c ∈ (numbersText o.numbers ++
      String.join (List.replicate o.depth "[]")).toList.head?, ¬ isNameChar c := by
    intro o c hc
    rw [String.toList_append, List.head?_append, Option.mem_def, Option.or_eq_some_iff] at hc
    rcases hc with hc | ⟨-, hc⟩
    · rw [head_numbersText _ c hc]
      decide
    · rw [head_brackets _ c hc]
      decide
  rw [text, text, String.append_assoc, String.append_assoc, ← String.toList_inj,
    String.toList_append, String.toList_append (s := o'.name)] at h
  obtain ⟨hname, hrest⟩ := Text.append_inj_of_class ho ho' (hnumbers o) (hnumbers o') h
  rw [String.toList_append, String.toList_append] at hrest
  obtain ⟨hnumber, hdepth⟩ := Text.append_inj_of_class (p := (· ≠ '['))
    (fun c hc => by simpa using ne_of_mem_numbersText hc)
    (fun c hc => by simpa using ne_of_mem_numbersText hc)
    (fun c hc => by simp [head_brackets _ c hc]) (fun c hc => by simp [head_brackets _ c hc]) hrest
  exact Outline.ext (String.toList_inj.1 hname) (numbersText_inj (String.toList_inj.1 hnumber))
    (brackets_inj (String.toList_inj.1 hdepth))

end Outline

theorem isNameChar_outline {type : DataType} (h : type.isListed) :
    ∀ c ∈ type.outline.name.toList, Outline.isNameChar c := by
  rw [← List.all_eq_true]
  induction type with
  | decimal precision scale => exact (by decide : "DECIMAL".toList.all Outline.isNameChar)
  | numeric precision scale => exact (by decide : "NUMERIC".toList.all Outline.isNameChar)
  | char length => exact (by decide : "CHAR".toList.all Outline.isNameChar)
  | varchar length => exact (by decide : "VARCHAR".toList.all Outline.isNameChar)
  | varbinary length => exact (by decide : "VARBINARY".toList.all Outline.isNameChar)
  | array element ih => exact ih h
  | custom name => cases h
  | _ => decide

/-- Types of the list have the same text just if they are the same, but for a scale without
precision. -/
theorem sql_eq_iff_normalize_eq {a b : DataType} (ha : a.isListed) (hb : b.isListed) :
    a.sql = b.sql ↔ a.normalize = b.normalize := by
  constructor
  · intro h
    rw [sql_eq_text_outline, sql_eq_text_outline] at h
    have houtline := Outline.text_inj (isNameChar_outline ha) (isNameChar_outline hb) h
    rw [← type_outline ha, ← type_outline hb, houtline]
  · intro h
    have hlayout : a.layout = b.layout := by rw [← layout_normalize a, h, layout_normalize]
    rw [← text_layout, ← text_layout, hlayout]

/-- In an array a scale without precision is not written, a scale behind a precision is. -/
theorem sql_eq_iff_normalize_eq_scale :
    let scaled : DataType := .array (.numeric none (some 3))
    let plain : DataType := .array (.numeric none none)
    let precise : DataType := .array (.numeric (some 5) (some 3))
    (scaled.isListed ∧ plain.isListed ∧ precise.isListed) ∧
      (scaled ≠ plain ∧ scaled.normalize = plain.normalize ∧ scaled.sql = plain.sql) ∧
      (scaled.normalize ≠ precise.normalize ∧ scaled.sql ≠ precise.sql) := by
  intro scaled plain precise
  have hsame : scaled.normalize = plain.normalize := rfl
  have hdiffer : scaled.normalize ≠ precise.normalize := by decide
  refine ⟨⟨rfl, rfl, rfl⟩, ⟨by decide, hsame, ?_⟩, hdiffer, fun h => hdiffer ?_⟩
  · exact (sql_eq_iff_normalize_eq rfl rfl).2 hsame
  · exact (sql_eq_iff_normalize_eq rfl rfl).1 h

end DataType

end SqlText
