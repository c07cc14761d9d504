import Mathlib.Algebra.Group.Nat.Defs
import Mathlib.Data.List.TakeDrop
import Mathlib.Data.List.TakeWhile
import SqlText.Temporal.Timestamp

/-!
# The spellings of dates and times

A grammar for the texts of temporal values, apart from the functions that read and write them. A
date has the spellings `[+|-]YYYY-MM-DD`, where a year with a sign has four to six digits and one
without has four. A time has the spellings `HH:MM[:SS[.f…]]` : seconds that are left out are zero,
a fraction is filled up with zeros to nine digits, and digits behind the ninth do not count. A
timestamp is a date and a time with its seconds, joined by the letter T.

The readers accept exactly these spellings (`Date.ofChars?_eq_some_iff`, `Time.ofChars?_eq_some_iff`
and `Timestamp.ofChars?_eq_some_iff`), and what is written of a value is one of its spellings
(`Date.spelling_text`, `Time.spelling_text`, `Timestamp.spelling_isoText`).
-/

namespace SqlText

/-! ## Digits -/

namespace Digits

/-- Decimal digits, `width` of them, that spell a number. -/
structure Spell (width : Nat) (digits : List Char) (n : Nat) : Prop where
  length_eq : digits.length = width
  isDigit : ∀ c ∈ digits, c.isDigit = true
  value_eq : value digits = n

theorem value_append_singleton (digits : List Char) (c : Char) :
    value (digits ++ [c]) = 10 * value digits + (c.toNat - '0'.toNat) := by
  simp [value, Nat.ofDigitChars_append, Nat.ofDigitChars_cons]

/-- Zeros behind digits multiply their value. -/
theorem value_append_zeros (digits : List Char) (k : Nat) :
    value (digits ++ List.replicate k '0') = value digits * 10 ^ k := by
  induction k with
  | zero => simp
  | succ k ih =>
    rw [List.replicate_succ', ← List.append_assoc, value_append_singleton, ih, Nat.pow_succ]
    simp only [Nat.sub_self, Nat.add_zero]
    rw [Nat.mul_left_comm, Nat.mul_comm 10]

/-- A number is spelled by its last digits if it has no others. -/
theorem spell_fixed {width n : Nat} (h : n < 10 ^ width) : Spell width (fixed width n) n := by
  induction width generalizing n with
  | zero =>
    have hn : n = 0 := by simpa using h
    exact ⟨rfl, by simp [fixed], by simp [fixed, value, hn]⟩
  | succ width ih =>
    have hdiv : n / 10 < 10 ^ width := by
      rw [Nat.pow_succ] at h
      omega
    have hmod : n % 10 < 10 := Nat.mod_lt _ (by decide)
    obtain ⟨hlength, hdigit, hvalue⟩ := ih hdiv
    refine ⟨by simp [fixed, hlength], ?_, ?_⟩
    · simp only [fixed, List.forall_mem_append, List.forall_mem_singleton]
      exact ⟨hdigit, by simp [Nat.isDigit_digitChar, hmod]⟩
    · have hzero : '0'.toNat = 48 := rfl
      rw [fixed, value_append_singleton, hvalue, Nat.toNat_digitChar_of_lt_ten hmod, hzero]
      omega

/-- A number of a given width is read wherever digits spell it. -/
theorem take?_eq_some_iff {width n : Nat} {input rest : List Char} :
    take? width input = some (n, rest) ↔
      ∃ digits, input = digits ++ rest ∧ Spell width digits n := by
  constructor
  · intro h
    simp only [take?, Option.ite_none_right_eq_some, Option.some.injEq, Prod.mk.injEq] at h
    obtain ⟨⟨hlength, hdigit⟩, hvalue, hrest⟩ := h
    refine ⟨input.take width, ?_, hlength, List.all_eq_true.1 hdigit, hvalue⟩
    rw [← hrest, List.take_append_drop]
  · rintro ⟨digits, rfl, rfl, hdigit, rfl⟩
    simp [take?, List.all_eq_true.2 hdigit]

end Digits

/-! ## Dates -/

namespace Date

/-- The spellings of a year. -/
inductive YearSpelling : Int → List Char → Prop
  | unsigned {digits : List Char} {n : Nat} (h : Digits.Spell 4 digits n) : YearSpelling n digits
  | positive {width : Nat} {digits : List Char} {n : Nat} (hmin : 4 ≤ width) (hmax : width ≤ 6)
    (h : Digits.Spell width digits n) : YearSpelling n ('+' :: digits)
  | negative {width : Nat} {digits : List Char} {n : Nat} (hmin : 4 ≤ width) (hmax : width ≤ 6)
    (h : Digits.Spell width digits n) : YearSpelling (-n) ('-' :: digits)

/-- The spellings of a date. -/
inductive Spelling (d : Date) : List Char → Prop
  | mk {year month day : List Char} (hyear : YearSpelling d.year year)
    (hmonth : Digits.Spell 2 month d.month) (hday : Digits.Spell 2 day d.day) :
    Spelling d (year ++ '-' :: month ++ '-' :: day)

/-- A digit is no sign. -/
theorem ne_sign_of_isDigit {c : Char} (h : c.isDigit = true) : c ≠ '+' ∧ c ≠ '-' := by
  constructor <;> rintro rfl <;> revert h <;> decide

/-- An unsigned year is read from its digits. -/
theorem readYear_unsigned {digits : List Char} {n : Nat} (h : Digits.Spell 4 digits n)
    (rest : List Char) : readYear (digits ++ rest) = some ((n : Int), rest) := by
  have hread : Digits.take? 4 (digits ++ rest) = some (n, rest) :=
    Digits.take?_eq_some_iff.2 ⟨digits, rfl, h⟩
  obtain ⟨c, tail, rfl⟩ := List.exists_cons_of_length_eq_add_one h.length_eq
  obtain ⟨hplus, hminus⟩ := ne_sign_of_isDigit (h.isDigit c List.mem_cons_self)
  rw [List.cons_append] at hread ⊢
  rw [readYear, hread]
  · rfl
  · rintro _ ⟨⟩
    exact hplus rfl
  · rintro _ ⟨⟩
    exact hminus rfl

/-- The magnitude of a signed year is read up to the hyphen. -/
theorem readYear_signed {width : Nat} {digits : List Char} {n : Nat} (hmin : 4 ≤ width)
    (hmax : width ≤ 6) (h : Digits.Spell width digits n) (sign : Int) (rest : List Char) :
    readYear.signed sign (digits ++ '-' :: rest) = some (sign * n, '-' :: rest) := by
  have hdigits : (digits ++ '-' :: rest).takeWhile Char.isDigit = digits := by
    rw [List.takeWhile_append_of_pos h.isDigit, List.takeWhile_cons_of_neg (by decide),
      List.append_nil]
  obtain ⟨rfl, -, rfl⟩ := h
  simp only [readYear.signed, hdigits, hmin, hmax, and_self, if_true, List.drop_left]

theorem signed_eq_some {sign year : Int} {input rest : List Char}
    (h : readYear.signed sign input = some (year, rest)) :
    ∃ width digits n, input = digits ++ rest ∧ 4 ≤ width ∧ width ≤ 6 ∧
      Digits.Spell width digits n ∧ year = sign * n := by
  simp only [readYear.signed, Option.ite_none_right_eq_some, Option.some.injEq, Prod.mk.injEq] at h
  obtain ⟨⟨hmin, hmax⟩, hyear, hrest⟩ := h
  refine ⟨_, input.takeWhile Char.isDigit, _, ?_, hmin, hmax, ⟨rfl, ?_, rfl⟩, hyear.symm⟩
  · rw [← hrest, List.prefix_iff_eq_append.1 (List.takeWhile_prefix _)]
  · exact fun c hc => List.mem_takeWhile_imp hc

/-- What is read as a year is a spelling of it. -/
theorem yearSpelling_of_readYear {year : Int} {input rest : List Char}
    (h : readYear input = some (year, rest)) :
    ∃ chars, input = chars ++ rest ∧ YearSpelling year chars := by
  unfold readYear at h
  split at h
  · obtain ⟨width, digits, n, rfl, hmin, hmax, hn, rfl⟩ := signed_eq_some h
    exact ⟨'+' :: digits, rfl, by simpa using .positive hmin hmax hn⟩
  · obtain ⟨width, digits, n, rfl, hmin, hmax, hn, rfl⟩ := signed_eq_some h
    exact ⟨'-' :: digits, rfl, by simpa using .negative hmin hmax hn⟩
  · obtain ⟨⟨n, rest'⟩, hread, heq⟩ := Option.map_eq_some_iff.1 h
    cases heq
    obtain ⟨digits, rfl, hn⟩ := Digits.take?_eq_some_iff.1 hread
    exact ⟨digits, rfl, .unsigned hn⟩

/-- A spelling of a year is read as that year, up to the hyphen behind it. -/
theorem readYear_of_yearSpelling {year : Int} {chars : List Char} (h : YearSpelling year chars)
    (rest : List Char) : readYear (chars ++ '-' :: rest) = some (year, '-' :: rest) := by
  cases h with
  | unsigned hn => exact readYear_unsigned hn _
  | positive hmin hmax hn =>
    have hread := readYear_signed hmin hmax hn 1 rest
    rw [Int.one_mul] at hread
    exact hread
  | negative hmin hmax hn =>
    have hread := readYear_signed hmin hmax hn (-1) rest
    rw [Int.neg_mul, Int.one_mul] at hread
    exact hread

/-- There is one day with given numbers at most. -/
theorem ofParts?_eq_some_iff {year : Int} {month day : Nat} {d : Date} :
    ofParts? year month day = some d ↔ d.year = year ∧ d.month = month ∧ d.day = day := by
  obtain ⟨y, m, k, hy, hm, hk⟩ := d
  constructor
  · intro h
    unfold ofParts? at h
    split_ifs at h
    cases h
    exact ⟨rfl, rfl, rfl⟩
  · rintro ⟨rfl, rfl, rfl⟩
    simp only [ofParts?, dif_pos hy, dif_pos hm, dif_pos hk]

/-- A date is read from its spellings and from nothing else. -/
theorem ofChars?_eq_some_iff {input : List Char} {d : Date} :
    ofChars? input = some d ↔ d.Spelling input := by
  constructor
  · intro h
    unfold ofChars? at h
    split at h
    · next year rest hyear =>
      split at h
      · next month rest hmonth =>
        split at h
        · next day hday =>
          obtain ⟨hy, hm, hd⟩ := ofParts?_eq_some_iff.1 h
          obtain ⟨ychars, rfl, hys⟩ := yearSpelling_of_readYear hyear
          obtain ⟨mchars, rfl, hms⟩ := Digits.take?_eq_some_iff.1 hmonth
          obtain ⟨dchars, rfl, hds⟩ := Digits.take?_eq_some_iff.1 hday
          subst hy hm hd
          simpa using Spelling.mk hys hms hds
        · cases h
      · cases h
    · cases h
  · rintro ⟨hyear, hmonth, hday⟩
    rename_i year month day
    have hm : Digits.take? 2 (month ++ '-' :: day) = some (d.month, '-' :: day) :=
      Digits.take?_eq_some_iff.2 ⟨month, rfl, hmonth⟩
    have hd : Digits.take? 2 day = some (d.day, []) :=
      Digits.take?_eq_some_iff.2 ⟨day, (List.append_nil _).symm, hday⟩
    have hy := readYear_of_yearSpelling hyear (month ++ '-' :: day)
    simp only [ofChars?, List.append_assoc, List.cons_append, hy, hm, hd]
    exact ofParts?_eq_some_iff.2 ⟨rfl, rfl, rfl⟩

theorem lt_pow_yearWidth {n : Nat} (h : n < 1000000) : n < 10 ^ yearWidth n := by
  unfold yearWidth
  split_ifs <;> omega

theorem yearWidth_bounds (n : Nat) : 4 ≤ yearWidth n ∧ yearWidth n ≤ 6 := by
  unfold yearWidth
  split_ifs <;> decide

/-- What is written of a year is one of its spellings. -/
theorem yearSpelling_yearChars {year : Int} (h : year.natAbs < 1000000) :
    YearSpelling year (yearChars year) := by
  have hspell := Digits.spell_fixed (lt_pow_yearWidth h)
  obtain ⟨hmin, hmax⟩ := yearWidth_bounds year.natAbs
  unfold yearChars
  split_ifs with hneg hshort
  · have hyear : year = -(year.natAbs : Int) := by omega
    rw [hyear, Int.natAbs_neg, Int.natAbs_natCast]
    exact .negative hmin hmax hspell
  · have hyear : year = (year.natAbs : Int) := by omega
    have hwidth : yearWidth year.natAbs = 4 := if_pos (by omega)
    rw [hwidth] at hspell ⊢
    rw [hyear, Int.natAbs_natCast]
    exact .unsigned hspell
  · have hyear : year = (year.natAbs : Int) := by omega
    rw [hyear, Int.natAbs_natCast]
    exact .positive hmin hmax hspell

theorem day_lt (d : Date) : d.day < 100 := by
  have hday := d.day_bounds.2
  unfold daysInMonth at hday
  split_ifs at hday <;> omega

/-- What is written of a date is one of its spellings. -/
theorem spelling_chars (d : Date) : d.Spelling d.chars := by
  have hyear := d.year_bounds
  have hmonth := d.month_bounds
  exact .mk (yearSpelling_yearChars (by omega)) (Digits.spell_fixed (by omega))
    (Digits.spell_fixed d.day_lt)

theorem spelling_text (d : Date) : d.Spelling d.text.toList := by
  rw [text, String.toList_ofList]
  exact d.spelling_chars

end Date

/-! ## Times -/

namespace Time

/-- The spellings of a fraction of a second, behind the seconds. -/
inductive FractionSpelling : Nat → List Char → Prop
  | whole : FractionSpelling 0 []
  | digits {width n : Nat} {digits : List Char} (hwidth : 0 < width)
    (h : Digits.Spell width digits n) :
    FractionSpelling (Digits.value ((digits ++ List.replicate 9 '0').take 9)) ('.' :: digits)

/-- The spellings of a time with its seconds. -/
inductive FullSpelling (t : Time) : List Char → Prop
  | mk {hour minute second fraction : List Char} (hhour : Digits.Spell 2 hour t.hour)
    (hminute : Digits.Spell 2 minute t.minute) (hsecond : Digits.Spell 2 second t.second)
    (hfraction : FractionSpelling t.nanosecond fraction) :
    FullSpelling t (hour ++ ':' :: minute ++ ':' :: second ++ fraction)

/-- The spellings of a time. -/
inductive Spelling (t : Time) : List Char → Prop
  | full {chars : List Char} (h : t.FullSpelling chars) : Spelling t chars
  | short {hour minute : List Char} (hhour : Digits.Spell 2 hour t.hour)
    (hminute : Digits.Spell 2 minute t.minute) (hsecond : t.second = 0)
    (hnanosecond : t.nanosecond = 0) : Spelling t (hour ++ ':' :: minute)

/-- The nanoseconds of a fraction are its first nine digits, filled up with zeros. -/
theorem nanosecondOf_eq (digits : List Char) :
    nanosecondOf digits = Digits.value ((digits ++ List.replicate 9 '0').take 9) := by
  have hpow : Nat.pow 10 (9 - digits.length) = 10 ^ (9 - digits.length) := rfl
  rw [nanosecondOf, hpow, ← Digits.value_append_zeros, List.take_append, List.take_replicate]
  congr 3
  omega

theorem readFraction_eq_some_iff {input : List Char} {nanosecond : Nat} :
    readFraction input = some nanosecond ↔ FractionSpelling nanosecond input := by
  constructor
  · intro h
    unfold readFraction at h
    split at h
    · cases h
      exact .whole
    · next digits =>
      simp only [Option.ite_none_right_eq_some, Option.some.injEq] at h
      obtain ⟨⟨hne, hdigit⟩, rfl⟩ := h
      rw [nanosecondOf_eq]
      exact .digits (List.length_pos_iff.2 hne) ⟨rfl, List.all_eq_true.1 hdigit, rfl⟩
    · cases h
  · rintro (_ | ⟨hwidth, rfl, hdigit, -⟩)
    · rfl
    · rename_i digits
      rw [← nanosecondOf_eq, readFraction,
        if_pos ⟨List.length_pos_iff.1 hwidth, List.all_eq_true.2 hdigit⟩]

/-- There is one time with given numbers at most. -/
theorem ofParts?_eq_some_iff {hour minute second nanosecond : Nat} {t : Time} :
    ofParts? hour minute second nanosecond = some t ↔
      t.hour = hour ∧ t.minute = minute ∧ t.second = second ∧ t.nanosecond = nanosecond := by
  obtain ⟨h, m, s, n, hh, hm, hs, hn⟩ := t
  constructor
  · intro heq
    unfold ofParts? at heq
    split_ifs at heq
    cases heq
    exact ⟨rfl, rfl, rfl, rfl⟩
  · rintro ⟨rfl, rfl, rfl, rfl⟩
    simp only [ofParts?, dif_pos hh, dif_pos hm, dif_pos hs, dif_pos hn]

theorem readClock_eq_some_iff {input rest : List Char} {h m : Nat} :
    readClock input = some (h, m, rest) ↔
      ∃ hour minute, input = hour ++ ':' :: minute ++ rest ∧ Digits.Spell 2 hour h ∧
        Digits.Spell 2 minute m := by
  constructor
  · intro heq
    unfold readClock at heq
    split at heq
    · next n tail hhour =>
      obtain ⟨⟨m', rest'⟩, hminute, hparts⟩ := Option.map_eq_some_iff.1 heq
      cases hparts
      obtain ⟨hour, rfl, hh⟩ := Digits.take?_eq_some_iff.1 hhour
      obtain ⟨minute, rfl, hm⟩ := Digits.take?_eq_some_iff.1 hminute
      exact ⟨hour, minute, by simp, hh, hm⟩
    · cases heq
  · rintro ⟨hour, minute, rfl, hh, hm⟩
    have hhour : Digits.take? 2 (hour ++ ':' :: (minute ++ rest)) =
        some (h, ':' :: (minute ++ rest)) :=
      Digits.take?_eq_some_iff.2 ⟨hour, rfl, hh⟩
    have hminute : Digits.take? 2 (minute ++ rest) = some (m, rest) :=
      Digits.take?_eq_some_iff.2 ⟨minute, rfl, hm⟩
    simp only [readClock, List.append_assoc, List.cons_append, hhour, hminute, Option.map_some]

theorem readSeconds_eq_some_iff {input : List Char} {s n : Nat} :
    readSeconds input = some (s, n) ↔
      ∃ second fraction, input = ':' :: second ++ fraction ∧ Digits.Spell 2 second s ∧
        FractionSpelling n fraction := by
  constructor
  · intro heq
    unfold readSeconds at heq
    split at heq
    · split at heq
      · next n' rest hsecond =>
        obtain ⟨nanosecond, hfraction, hparts⟩ := Option.map_eq_some_iff.1 heq
        cases hparts
        obtain ⟨second, rfl, hs⟩ := Digits.take?_eq_some_iff.1 hsecond
        exact ⟨second, rest, rfl, hs, readFraction_eq_some_iff.1 hfraction⟩
      · cases heq
    · cases heq
  · rintro ⟨second, fraction, rfl, hs, hn⟩
    have hsecond : Digits.take? 2 (second ++ fraction) = some (s, fraction) :=
      Digits.take?_eq_some_iff.2 ⟨second, rfl, hs⟩
    simp only [readSeconds, List.cons_append, hsecond, readFraction_eq_some_iff.2 hn,
      Option.map_some]

/-- In a full spelling, a colon and the seconds follow the minutes. -/
theorem readClock_of_fullSpelling {t : Time} {input : List Char} (h : t.FullSpelling input) :
    ∃ rest, readClock input = some (t.hour, t.minute, ':' :: rest) ∧
      readSeconds (':' :: rest) = some (t.second, t.nanosecond) := by
  obtain ⟨hh, hm, hs, hn⟩ := h
  rename_i hour minute second fraction
  refine ⟨second ++ fraction, readClock_eq_some_iff.2 ⟨hour, minute, ?_, hh, hm⟩,
    readSeconds_eq_some_iff.2 ⟨second, fraction, rfl, hs, hn⟩⟩
  rw [List.append_assoc, List.cons_append]

/-- A time with its seconds is read from its full spellings and from nothing else. -/
theorem ofFullChars?_eq_some_iff {input : List Char} {t : Time} :
    ofFullChars? input = some t ↔ t.FullSpelling input := by
  constructor
  · intro h
    unfold ofFullChars? at h
    split at h
    · next hour minute rest hclock =>
      obtain ⟨⟨second, nanosecond⟩, hseconds, hparts⟩ := Option.bind_eq_some_iff.1 h
      obtain ⟨rfl, rfl, rfl, rfl⟩ := ofParts?_eq_some_iff.1 hparts
      obtain ⟨hchars, mchars, rfl, hh, hm⟩ := readClock_eq_some_iff.1 hclock
      obtain ⟨schars, fraction, rfl, hs, hn⟩ := readSeconds_eq_some_iff.1 hseconds
      simpa using FullSpelling.mk hh hm hs hn
    · cases h
  · intro h
    obtain ⟨rest, hclock, hseconds⟩ := readClock_of_fullSpelling h
    simp only [ofFullChars?, hclock, hseconds, Option.bind_some]
    exact ofParts?_eq_some_iff.2 ⟨rfl, rfl, rfl, rfl⟩

/-- A time is read from its spellings and from nothing else. -/
theorem ofChars?_eq_some_iff {input : List Char} {t : Time} :
    ofChars? input = some t ↔ t.Spelling input := by
  constructor
  · intro h
    unfold ofChars? at h
    split at h
    · next hour minute hclock =>
      obtain ⟨rfl, rfl, hsecond, hnanosecond⟩ := ofParts?_eq_some_iff.1 h
      obtain ⟨hchars, mchars, rfl, hh, hm⟩ := readClock_eq_some_iff.1 hclock
      rw [List.append_nil]
      exact .short hh hm hsecond hnanosecond
    · exact .full (ofFullChars?_eq_some_iff.1 h)
  · rintro (hfull | ⟨hh, hm, hsecond, hnanosecond⟩)
    · obtain ⟨rest, hclock, -⟩ := readClock_of_fullSpelling hfull
      rw [ofChars?, hclock]
      exact ofFullChars?_eq_some_iff.2 hfull
    · rename_i hour minute
      have hclock := readClock_eq_some_iff.2 ⟨hour, minute, (List.append_nil _).symm, hh, hm⟩
      rw [ofChars?, hclock]
      exact ofParts?_eq_some_iff.2 ⟨rfl, rfl, hsecond, hnanosecond⟩

/-- Nine digits or fewer spell so many nanoseconds. -/
theorem fractionSpelling_of_spell {width n : Nat} {digits : List Char} (hwidth : 0 < width)
    (hle : width ≤ 9) (h : Digits.Spell width digits n) :
    FractionSpelling (n * 10 ^ (9 - width)) ('.' :: digits) := by
  have hvalue : n * 10 ^ (9 - width) = nanosecondOf digits := by
    obtain ⟨rfl, -, rfl⟩ := h
    rw [nanosecondOf, List.take_of_length_le hle]
    rfl
  rw [hvalue, nanosecondOf_eq]
  exact .digits hwidth h

theorem fractionSpelling_fractionChars {n : Nat} (h : n < 1000000000) :
    FractionSpelling n (fractionChars n) := by
  unfold fractionChars
  split_ifs with hzero hmilli hmicro
  · rw [hzero]
    exact .whole
  · have hspell : Digits.Spell 3 _ (n / 1000000) := Digits.spell_fixed (by omega)
    have hfraction := fractionSpelling_of_spell (by decide) (by decide) hspell
    rwa [show n / 1000000 * 10 ^ (9 - 3) = n by omega] at hfraction
  · have hspell : Digits.Spell 6 _ (n / 1000) := Digits.spell_fixed (by omega)
    have hfraction := fractionSpelling_of_spell (by decide) (by decide) hspell
    rwa [show n / 1000 * 10 ^ (9 - 6) = n by omega] at hfraction
  · have hspell : Digits.Spell 9 _ n := Digits.spell_fixed (by omega)
    have hfraction := fractionSpelling_of_spell (by decide) (by decide) hspell
    rwa [Nat.sub_self, Nat.pow_zero, Nat.mul_one] at hfraction

/-- What is written of a time is one of its full spellings. -/
theorem spelling_chars (t : Time) : t.FullSpelling t.chars := by
  have hhour := t.hour_lt
  have hminute := t.minute_lt
  have hsecond := t.second_le
  exact .mk (Digits.spell_fixed (by omega)) (Digits.spell_fixed (by omega))
    (Digits.spell_fixed (by omega)) (fractionSpelling_fractionChars t.nanosecond_lt)

theorem spelling_text (t : Time) : t.Spelling t.text.toList := by
  rw [text, String.toList_ofList]
  exact .full t.spelling_chars

end Time

/-! ## Timestamps -/

namespace Timestamp

/-- The spellings of a timestamp. -/
inductive Spelling (t : Timestamp) : List Char → Prop
  | mk {date time : List Char} (hdate : t.date.Spelling date)
    (htime : t.time.FullSpelling time) : Spelling t (date ++ 'T' :: time)

end Timestamp

namespace Date

/-- The characters of a year are digits and signs. -/
theorem YearSpelling.isDigit_or {year : Int} {chars : List Char} (h : YearSpelling year chars) :
    ∀ c ∈ chars, c.isDigit = true ∨ c = '+' ∨ c = '-' := by
  cases h with
  | unsigned h => exact fun c hc => .inl (h.isDigit c hc)
  | positive _ _ h =>
    exact List.forall_mem_cons.2 ⟨.inr (.inl rfl), fun c hc => .inl (h.isDigit c hc)⟩
  | negative _ _ h =>
    exact List.forall_mem_cons.2 ⟨.inr (.inr rfl), fun c hc => .inl (h.isDigit c hc)⟩

/-- The characters of a date are digits and signs. -/
theorem Spelling.isDigit_or {d : Date} {chars : List Char} (h : d.Spelling chars) :
    ∀ c ∈ chars, c.isDigit = true ∨ c = '+' ∨ c = '-' := by
  obtain ⟨hyear, hmonth, hday⟩ := h
  rw [List.forall_mem_append, List.forall_mem_append, List.forall_mem_cons, List.forall_mem_cons]
  exact ⟨⟨hyear.isDigit_or, .inr (.inr rfl), fun c hc => .inl (hmonth.isDigit c hc)⟩,
    .inr (.inr rfl), fun c hc => .inl (hday.isDigit c hc)⟩

/-- The letter T is in no spelling of a date. -/
theorem Spelling.ne_T {d : Date} {chars : List Char} (h : d.Spelling chars) :
    ∀ c ∈ chars, c ≠ 'T' := by
  rintro _ hc rfl
  rcases h.isDigit_or _ hc with h | h | h <;> revert h <;> decide

end Date

namespace Time

/-- The characters of a fraction are a point and digits. -/
theorem FractionSpelling.isDigit_or {n : Nat} {chars : List Char} (h : FractionSpelling n chars) :
    ∀ c ∈ chars, c.isDigit = true ∨ c = ':' ∨ c = '.' := by
  cases h with
  | whole => exact List.forall_mem_nil _
  | digits _ h => exact List.forall_mem_cons.2 ⟨.inr (.inr rfl), fun c hc => .inl (h.isDigit c hc)⟩

/-- The characters of a time with its seconds are digits, colons and a point. -/
theorem FullSpelling.isDigit_or {t : Time} {chars : List Char} (h : t.FullSpelling chars) :
    ∀ c ∈ chars, c.isDigit = true ∨ c = ':' ∨ c = '.' := by
  obtain ⟨hhour, hminute, hsecond, hfraction⟩ := h
  rw [List.forall_mem_append, List.forall_mem_append, List.forall_mem_append, List.forall_mem_cons,
    List.forall_mem_cons]
  exact ⟨⟨⟨fun c hc => .inl (hhour.isDigit c hc), .inr (.inl rfl),
    fun c hc => .inl (hminute.isDigit c hc)⟩, .inr (.inl rfl),
    fun c hc => .inl (hsecond.isDigit c hc)⟩, hfraction.isDigit_or⟩

end Time

namespace Timestamp

/-- A timestamp is read from its spellings and from nothing else. -/
theorem ofChars?_eq_some_iff {input : List Char} {t : Timestamp} :
    ofChars? input = some t ↔ t.Spelling input := by
  constructor
  · intro h
    unfold ofChars? at h
    split at h
    · next date time hspan =>
      rw [List.span_eq_takeWhile_dropWhile] at hspan
      obtain ⟨rfl, htime⟩ := Prod.mk.inj hspan
      obtain ⟨d, hd, h⟩ := Option.bind_eq_some_iff.1 h
      obtain ⟨k, hk, h⟩ := Option.bind_eq_some_iff.1 h
      cases h
      have hinput : input = input.takeWhile (· ≠ 'T') ++ 'T' :: time := by
        rw [← htime, List.takeWhile_append_dropWhile]
      rw [hinput]
      exact .mk (Date.ofChars?_eq_some_iff.1 hd) (Time.ofFullChars?_eq_some_iff.1 hk)
    · cases h
  · rintro ⟨hdate, htime⟩
    rename_i date time
    have hpos : ∀ c ∈ date, decide (c ≠ 'T') = true := fun c hc =>
      decide_eq_true (hdate.ne_T c hc)
    have hspan : (date ++ 'T' :: time).span (· ≠ 'T') = (date, 'T' :: time) := by
      rw [List.span_eq_takeWhile_dropWhile, List.takeWhile_append_of_pos hpos,
        List.dropWhile_append_of_pos hpos, List.takeWhile_cons_of_neg (by decide),
        List.dropWhile_cons_of_neg (by decide), List.append_nil]
    simp only [ofChars?, hspan, Date.ofChars?_eq_some_iff.2 hdate,
      Time.ofFullChars?_eq_some_iff.2 htime]
    rfl

/-- The exchanged form of a timestamp is one of its spellings. -/
theorem spelling_isoText (t : Timestamp) : t.Spelling t.isoText.toList := by
  rw [isoText, joined, String.toList_ofList]
  exact .mk t.date.spelling_chars t.time.spelling_chars

end Timestamp

end SqlText
