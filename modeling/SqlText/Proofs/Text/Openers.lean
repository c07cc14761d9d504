import Mathlib.Data.List.Chain
import Mathlib.Data.List.Infix
import SqlText.Proofs.Text.Scanning

/-!
# Where comments begin

A comment begins with two hyphens or with a slash and a star. When texts are put together, comments
are opened inside the texts and where the end of one text meets the beginning of the next
(`opensComment_append`, `opensComment_join`).

A text is quiet if it opens no comment, and settled if no text behind it can open one at its end.
What a piece of text does to the text in front of it is described by what it turns into what
(`Turns`) : words with harmless ends turn quiet texts into settled ones, and quiet texts can be put
behind settled ones.
-/

namespace SqlText.Text

/-- Two characters that open a comment. -/
def Opener (a b : Char) : Prop :=
  a = '-' ∧ b = '-' ∨ a = '/' ∧ b = '*'

instance : DecidableRel Opener :=
  fun a b => inferInstanceAs (Decidable (a = '-' ∧ b = '-' ∨ a = '/' ∧ b = '*'))

/-- A comment is opened somewhere in the text. -/
def OpensComment (text : String) : Prop :=
  ['-', '-'] <:+: text.toList ∨ ['/', '*'] <:+: text.toList

instance : DecidablePred OpensComment :=
  fun text => inferInstanceAs
    (Decidable (['-', '-'] <:+: text.toList ∨ ['/', '*'] <:+: text.toList))

/-- A comment is opened where the first text ends and the second begins. -/
def Adjoin (first second : String) : Prop :=
  ∃ a ∈ first.toList.getLast?, ∃ b ∈ second.toList.head?, Opener a b

/-- A comment is opened where a piece ends and the text of the following pieces begins. -/
def Meet : List String → Prop
  | [] => False
  | piece :: rest => Adjoin piece (String.join rest) ∨ Meet rest

/-- No comment is opened in the text. -/
def Quiet (text : String) : Prop :=
  ¬ OpensComment text

instance : DecidablePred Quiet :=
  fun text => inferInstanceAs (Decidable (¬ OpensComment text))

variable {text first second : String}

theorem opensComment_iff_exists :
    OpensComment text ↔
      ∃ before after a b, Opener a b ∧ text.toList = before ++ a :: b :: after := by
  constructor
  · rintro (⟨before, after, h⟩ | ⟨before, after, h⟩)
    · exact ⟨before, after, '-', '-', by decide, by simp [← h]⟩
    · exact ⟨before, after, '/', '*', by decide, by simp [← h]⟩
  · rintro ⟨before, after, a, b, ⟨rfl, rfl⟩ | ⟨rfl, rfl⟩, h⟩
    · exact .inl ⟨before, after, by simp [h]⟩
    · exact .inr ⟨before, after, by simp [h]⟩

/-- In a quiet text no two neighbouring characters open a comment. -/
theorem quiet_iff_isChain : Quiet text ↔ text.toList.IsChain fun a b => ¬ Opener a b := by
  rw [Quiet, opensComment_iff_exists, List.isChain_iff_forall_rel_of_append_cons_cons]
  constructor
  · exact fun h a b before after heq ho => h ⟨before, after, a, b, ho, heq⟩
  · rintro h ⟨before, after, a, b, ho, heq⟩
    exact h heq ho

/-- Comments are opened in the texts themselves, or where they meet. -/
theorem opensComment_append :
    OpensComment (first ++ second) ↔
      OpensComment first ∨ OpensComment second ∨ Adjoin first second := by
  have h : Quiet (first ++ second) ↔ Quiet first ∧ Quiet second ∧ ¬ Adjoin first second := by
    simp only [quiet_iff_isChain, String.toList_append, List.isChain_append, Adjoin, not_exists,
      not_and]
  simpa only [Quiet, ← not_or, not_iff_not] using h

theorem opensComment_join (pieces : List String) :
    OpensComment (String.join pieces) ↔ (∃ piece ∈ pieces, OpensComment piece) ∨ Meet pieces := by
  induction pieces with
  | nil => simp [Meet, OpensComment]
  | cons piece rest ih =>
    rw [String.join_cons, opensComment_append, ih, Meet, or_comm (a := Adjoin _ _)]
    simp only [List.mem_cons, exists_eq_or_imp, or_assoc]

/-- A comment in a part of a text is a comment in the text. -/
theorem OpensComment.between (h : OpensComment text) (before after : String) :
    OpensComment (before ++ text ++ after) :=
  opensComment_append.2 (.inl (opensComment_append.2 (.inr (.inl h))))

theorem not_adjoin_empty (text : String) : ¬ Adjoin text "" := by
  simp [Adjoin]

theorem not_meet_singleton (text : String) : ¬ Meet [text] := by
  simp [Meet, not_adjoin_empty]

theorem meet_pair (first second : String) : Meet [first, second] ↔ Adjoin first second := by
  simp [Meet, not_adjoin_empty]

/-! ## Quiet and settled texts -/

/-- No comment is opened in the text, nor where it ends, whatever follows. -/
def Settled (text : String) : Prop :=
  Quiet text ∧ ∀ next, ¬ Adjoin text next

/-- Behind every text with the one property the text makes a text with the other. -/
def Turns (P Q : String → Prop) (text : String) : Prop :=
  ∀ before, P before → Q (before ++ text)

/-- A word that opens no comment, neither with what is in front of it nor with what follows. -/
def Separates (word : String) : Prop :=
  Quiet word ∧ word.toList.head? ∉ [none, some '-', some '*'] ∧
    word.toList.getLast? ∉ [none, some '-', some '/']

instance : DecidablePred Separates :=
  fun word => inferInstanceAs
    (Decidable (Quiet word ∧ word.toList.head? ∉ [none, some '-', some '*'] ∧
      word.toList.getLast? ∉ [none, some '-', some '/']))

theorem settled_empty : Settled "" :=
  ⟨by decide, by simp [Adjoin]⟩

namespace Turns

variable {P Q R : String → Prop}

theorem append (hfirst : Turns P Q first) (hsecond : Turns Q R second) :
    Turns P R (first ++ second) := by
  intro before h
  rw [← String.append_assoc]
  exact hsecond _ (hfirst before h)

theorem empty : Turns P P "" := by
  intro before h
  rwa [String.append_empty]

/-- What can stand behind a quiet text can stand behind a settled one. -/
theorem ofQuiet (h : Turns Quiet Q text) : Turns Settled Q text :=
  fun before hb => h before hb.1

theorem toQuiet (h : Turns P Settled text) : Turns P Quiet text :=
  fun before hb => (h before hb).1

/-- A text that is put behind a settled one brings only its own comments. -/
theorem quiet (h : Quiet text) : Turns Settled Quiet text := by
  intro before hb ho
  rcases opensComment_append.1 ho with ho | ho | ho
  · exact hb.1 ho
  · exact h ho
  · exact hb.2 text ho

theorem word (h : Separates text) : Turns Quiet Settled text := by
  obtain ⟨hquiet, hhead, hlast⟩ := h
  intro before hb
  refine ⟨fun ho => ?_, fun next hn => ?_⟩
  · rcases opensComment_append.1 ho with ho | ho | ⟨_, -, b, hfirst, ho⟩
    · exact hb ho
    · exact hquiet ho
    · rcases ho with ⟨-, rfl⟩ | ⟨-, rfl⟩ <;> simp [Option.mem_def.1 hfirst] at hhead
  · obtain ⟨a, ha, _, -, ho⟩ := hn
    have hne : text.toList ≠ [] := fun he => hhead (by simp [he])
    rw [String.toList_append, List.getLast?_append_of_ne_nil _ hne] at ha
    rcases ho with ⟨rfl, -⟩ | ⟨rfl, -⟩ <;> simp [Option.mem_def.1 ha] at hlast

theorem quiet_text (h : Turns Settled Quiet text) : Quiet text := by
  rw [← String.empty_append (s := text)]
  exact h "" settled_empty

end Turns

/-! ### Ways of putting texts together -/

namespace Turns

variable {P Q : String → Prop}

theorem onlyIf (h : Turns P P text) (condition : Bool) : Turns P P (onlyIf condition text) := by
  cases condition with
  | true => exact h
  | false => exact empty

variable {α β : Type}

theorem ofOption {part : Option α} {text : α → String} (hnone : Turns P Q "")
    (hsome : ∀ a ∈ part.toList, Turns P Q (text a)) : Turns P Q (ofOption part text) := by
  cases part with
  | none => exact hnone
  | some a => exact hsome a (by simp)

theorem ofOption_map {part : Option α} {f : α → β} {text : β → String} (hnone : Turns P Q "")
    (hsome : ∀ a ∈ part.toList, Turns P Q (text (f a))) :
    Turns P Q (Text.ofOption (part.map f) text) := by
  cases part with
  | none => exact hnone
  | some a => exact hsome a (by simp)

theorem join {parts : List String} (h : ∀ part ∈ parts, Turns P P part) :
    Turns P P (String.join parts) := by
  induction parts with
  | nil => exact empty
  | cons part rest ih =>
    obtain ⟨hpart, hrest⟩ := List.forall_mem_cons.1 h
    rw [String.join_cons]
    exact hpart.append (ih hrest)

theorem commaSeparated {parts : List String} (h : ∀ part ∈ parts, Turns Settled Quiet part) :
    Turns Settled Quiet (commaSeparated parts) := by
  have hcomma : Turns Quiet Settled ", " := .word (by decide)
  unfold Text.commaSeparated
  induction parts with
  | nil => exact empty.toQuiet
  | cons part rest ih =>
    obtain ⟨hpart, hrest⟩ := List.forall_mem_cons.1 h
    cases rest with
    | nil => exact hpart
    | cons next rest =>
      rw [String.intercalate_cons_cons]
      exact (hpart.append hcomma).append (ih hrest)

theorem bracketed (h : Turns Settled Quiet text) : Turns Quiet Settled (bracketed text) :=
  ((Turns.word (by decide)).append h).append (.word (by decide))

theorem quoted (h : Quiet text) : Turns Quiet Settled (quoted text) :=
  ((word (by decide)).append (quiet h)).append (word (by decide))

end Turns

/-! ### Characters that open no comment -/

theorem quiet_of_forall (h : ∀ c ∈ text.toList, c ≠ '-' ∧ c ≠ '/') : Quiet text := by
  rintro (hin | hin)
  · exact (h '-' (hin.subset (by simp))).1 rfl
  · exact (h '/' (hin.subset (by simp))).2 rfl

theorem ne_of_isDigit {c : Char} (h : c.isDigit) : c ≠ '-' ∧ c ≠ '/' ∧ c ≠ '*' := by
  refine ⟨?_, ?_, ?_⟩ <;> rintro rfl <;> revert h <;> decide

theorem quiet_of_isDigit (h : ∀ c ∈ text.toList, c.isDigit) : Quiet text :=
  quiet_of_forall fun c hc => ⟨(ne_of_isDigit (h c hc)).1, (ne_of_isDigit (h c hc)).2.1⟩

theorem turns_toString (n : Nat) : Turns Settled Quiet (toString n) :=
  .quiet (quiet_of_isDigit fun _ hc => isDigit_of_mem_toString hc)

/-- Digits keep the texts on both sides apart. -/
theorem separates_of_isDigit (hne : text.toList ≠ []) (h : ∀ c ∈ text.toList, c.isDigit) :
    Separates text := by
  obtain ⟨hhyphen, -, hstar⟩ := ne_of_isDigit (h _ (List.head_mem hne))
  obtain ⟨hlast, hslash, -⟩ := ne_of_isDigit (h _ (List.getLast_mem hne))
  refine ⟨quiet_of_isDigit h, ?_, ?_⟩
  · simp [List.head?_eq_some_head hne, hhyphen, hstar]
  · simp [List.getLast?_eq_some_getLast hne, hlast, hslash]

end SqlText.Text
