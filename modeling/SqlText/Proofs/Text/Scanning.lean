import Mathlib.Data.List.Forall2
import SqlText.Digits
import SqlText.Text

/-!
# Quotes and brackets in texts

A scanner reads a text character by character. A quote switches between the inside and the outside
of a quotation; outside, opening brackets are put on a stack and a closing bracket takes its partner
off again. The scanner fails at a closing bracket whose partner is not on top.

A text is neutral if the scanner comes back to where it began, outside quotations and with the same
stack (`Text.Neutral`). A neutral text may stand anywhere outside quotations : it is passed over
with every stack (`Text.Neutral.leads`). Pieces of text that open brackets for others to close are
followed from stack to stack (`Text.Leads`).
-/

namespace SqlText.Text

/-! ## The scanner -/

/-- Where a scanner is : inside a quotation or not, and the brackets that are open, the last
first. -/
structure Scan where
  quoted : Bool
  stack : List Char
  deriving DecidableEq

/-- Whether a character opens a bracket. -/
def isOpening (c : Char) : Bool :=
  c = '(' || c = '\x7b' || c = '['

/-- The partner of a closing bracket. -/
def partner? : Char → Option Char
  | ')' => some '('
  | '\x7d' => some '\x7b'
  | ']' => some '['
  | _ => none

namespace Scan

/-- Reads a character; fails at a closing bracket whose partner is not on top of the stack. -/
def step : Scan → Char → Option Scan
  | ⟨true, stack⟩, c => some ⟨c ≠ '\x27', stack⟩
  | ⟨false, stack⟩, c =>
    if c = '\x27' then some ⟨true, stack⟩
    else if isOpening c then some ⟨false, c :: stack⟩
    else
      match partner? c, stack with
      | none, _ => some ⟨false, stack⟩
      | some opening, top :: rest => if top = opening then some ⟨false, rest⟩ else none
      | some _, [] => none

/-- Reads characters up to the first that fails. -/
def run : Scan → List Char → Option Scan
  | s, [] => some s
  | s, c :: rest => (s.step c).bind fun t => t.run rest

theorem run_append (s : Scan) (first second : List Char) :
    s.run (first ++ second) = (s.run first).bind fun t => t.run second := by
  induction first generalizing s with
  | nil => rfl
  | cons c rest ih =>
    rw [List.cons_append, run, run, Option.bind_assoc]
    exact congrArg (Option.bind (s.step c)) (funext ih)

/-- The same scanner with more brackets open underneath. -/
def above (below : List Char) (s : Scan) : Scan :=
  { s with stack := s.stack ++ below }

/-- What is read above some open brackets does not touch them. -/
theorem step_above {s t : Scan} {c : Char} (below : List Char) (h : s.step c = some t) :
    (s.above below).step c = some (t.above below) := by
  obtain ⟨quoted, stack⟩ := s
  cases quoted with
  | true =>
    obtain rfl := Option.some.inj h
    rfl
  | false =>
    simp only [step, above] at h ⊢
    split_ifs at h ⊢ with hquote hopening
    · obtain rfl := Option.some.inj h
      rfl
    · obtain rfl := Option.some.inj h
      rfl
    · cases hpartner : partner? c with
      | none =>
        simp only [hpartner, Option.some.injEq] at h ⊢
        rw [← h]
      | some opening =>
        cases stack with
        | nil => simp [hpartner] at h
        | cons top rest =>
          simp only [hpartner, Option.ite_none_right_eq_some, Option.some.injEq] at h ⊢
          obtain ⟨htop, rfl⟩ := h
          exact if_pos htop

theorem run_above {s t : Scan} {cs : List Char} (below : List Char) (h : s.run cs = some t) :
    (s.above below).run cs = some (t.above below) := by
  induction cs generalizing s with
  | nil =>
    obtain rfl := Option.some.inj h
    rfl
  | cons c rest ih =>
    obtain ⟨u, hstep, hrest⟩ := Option.bind_eq_some_iff.1 h
    rw [run, step_above below hstep, Option.bind_some]
    exact ih hrest

end Scan

/-! ## Texts that are followed from stack to stack -/

/-- Outside quotations, a text leads from open brackets to open brackets. -/
def Leads (before after : List Char) (text : String) : Prop :=
  Scan.run ⟨false, before⟩ text.toList = some ⟨false, after⟩

/-- A text whose quotations are closed and whose brackets are properly nested. -/
def Neutral (text : String) : Prop :=
  Leads [] [] text

instance (before after : List Char) (text : String) : Decidable (Leads before after text) :=
  inferInstanceAs (Decidable (_ = _))

instance (text : String) : Decidable (Neutral text) :=
  inferInstanceAs (Decidable (Leads _ _ _))

section Leads

variable {a b c : List Char} {first second text : String}

theorem Leads.append (hfirst : Leads a b first) (hsecond : Leads b c second) :
    Leads a c (first ++ second) := by
  unfold Leads
  rw [String.toList_append, Scan.run_append, hfirst]
  exact hsecond

/-- A neutral text is passed over with every stack. -/
theorem Neutral.leads (h : Neutral text) (stack : List Char) : Leads stack stack text :=
  Scan.run_above stack h

/-- Behind a text, a neutral one changes nothing. -/
theorem Leads.past (hfirst : Leads a b first) (hsecond : Neutral second) :
    Leads a b (first ++ second) :=
  hfirst.append (hsecond.leads b)

theorem Neutral.append (hfirst : Neutral first) (hsecond : Neutral second) :
    Neutral (first ++ second) :=
  Leads.past hfirst hsecond

theorem leads_opening : Leads a ('(' :: a) "(" := by
  simp [Leads, Scan.run, Scan.step, isOpening]

theorem Neutral.opening (h : Neutral text) : Leads a ('(' :: a) (text ++ "(") :=
  (h.leads a).append leads_opening

theorem leads_closing : Leads ('(' :: a) a ")" := by
  simp [Leads, Scan.run, Scan.step, isOpening, partner?]

end Leads

/-! ## Neutral texts -/

section Neutral

variable {α : Type} {text : String}

theorem neutral_empty : Neutral "" := rfl

theorem Neutral.bracketed (h : Neutral text) : Neutral (bracketed text) :=
  (leads_opening.past h).append leads_closing

theorem Neutral.onlyIf (condition : Bool) (h : Neutral text) : Neutral (onlyIf condition text) := by
  cases condition with
  | true => exact h
  | false => exact neutral_empty

theorem neutral_ofOption {part : Option α} {text : α → String}
    (h : ∀ a ∈ part.toList, Neutral (text a)) : Neutral (ofOption part text) := by
  cases part with
  | none => exact neutral_empty
  | some a => exact h a (List.mem_singleton.2 rfl)

theorem neutral_ofOption_map {β : Type} {part : Option α} {f : α → β} {text : β → String}
    (h : ∀ a ∈ part.toList, Neutral (text (f a))) : Neutral (ofOption (part.map f) text) := by
  refine neutral_ofOption ?_
  rw [Option.toList_map]
  exact List.forall_mem_map.2 h

theorem neutral_join {parts : List String} (h : ∀ part ∈ parts, Neutral part) :
    Neutral (String.join parts) := by
  induction parts with
  | nil => exact neutral_empty
  | cons part rest ih =>
    obtain ⟨hpart, hrest⟩ := List.forall_mem_cons.1 h
    rw [String.join_cons]
    exact hpart.append (ih hrest)

theorem neutral_commaSeparated {parts : List String} (h : ∀ part ∈ parts, Neutral part) :
    Neutral (commaSeparated parts) := by
  have hcomma : Neutral ", " := by decide
  unfold commaSeparated
  induction parts with
  | nil => exact neutral_empty
  | cons part rest ih =>
    obtain ⟨hpart, hrest⟩ := List.forall_mem_cons.1 h
    cases rest with
    | nil => exact String.intercalate_singleton ▸ hpart
    | cons next rest =>
      rw [String.intercalate_cons_cons]
      exact (hpart.append hcomma).append (ih hrest)

/-! ### Quotations -/

/-- Whether a text consists of characters other than quotes and of doubled quotes. -/
def quotesDoubled : List Char → Bool
  | [] => true
  | '\x27' :: '\x27' :: rest => quotesDoubled rest
  | c :: rest => c ≠ '\x27' && quotesDoubled rest

/-- A doubled quote closes a quotation and opens the next, with nothing in between. -/
theorem run_quoted_of_quotesDoubled {cs : List Char} (h : quotesDoubled cs) (stack : List Char) :
    Scan.run ⟨true, stack⟩ cs = some ⟨true, stack⟩ := by
  fun_induction quotesDoubled cs with
  | case1 => rfl
  | case2 rest ih => exact ih h
  | case3 c rest hpair ih =>
    obtain ⟨hquote, hrest⟩ := Bool.and_eq_true_iff.1 h
    rw [Scan.run, Scan.step, hquote, Option.bind_some]
    exact ih hrest

theorem neutral_quoted (h : quotesDoubled text.toList) : Neutral (quoted text) := by
  have hquote : "'".toList = ['\x27'] := by decide
  unfold quoted Neutral Leads
  rw [String.toList_append, String.toList_append, hquote, Scan.run_append, List.singleton_append,
    Scan.run]
  simp only [Scan.step, if_true, Option.bind_some, run_quoted_of_quotesDoubled h]
  rfl

/-! ### Texts without quotes and brackets -/

/-- Whether a character is neither a quote nor a bracket. -/
def isInert (c : Char) : Bool :=
  c ∉ ['\x27', '(', ')', '\x7b', '\x7d', '[', ']']

theorem step_of_isInert {c : Char} (h : isInert c) (stack : List Char) :
    Scan.step ⟨false, stack⟩ c = some ⟨false, stack⟩ := by
  simp only [isInert, List.mem_cons, List.not_mem_nil, or_false, not_or, decide_eq_true_eq] at h
  have hpartner : partner? c = none := by
    unfold partner?
    split <;> simp_all
  simp [Scan.step, isOpening, hpartner, h]

theorem neutral_of_isInert (h : ∀ c ∈ text.toList, isInert c) : Neutral text := by
  unfold Neutral Leads
  generalize text.toList = cs at h
  induction cs with
  | nil => rfl
  | cons c rest ih =>
    obtain ⟨hc, hrest⟩ := List.forall_mem_cons.1 h
    rw [Scan.run, step_of_isInert hc, Option.bind_some]
    exact ih hrest

theorem isInert_of_isDigit {c : Char} (h : c.isDigit) : isInert c := by
  have hmarks : ['\x27', '(', ')', '\x7b', '\x7d', '[', ']'].all (!·.isDigit) = true := by decide
  refine decide_eq_true fun hc => ?_
  have hnot := List.all_eq_true.1 hmarks c hc
  rw [h] at hnot
  cases hnot

theorem isDigit_of_mem_toString {n : Nat} {c : Char} (hc : c ∈ (toString n).toList) :
    c.isDigit := by
  rw [show toString n = n.repr from rfl, Nat.toList_repr] at hc
  exact Nat.isDigit_of_mem_toDigits (by decide) (by decide) hc

theorem neutral_toString (n : Nat) : Neutral (toString n) :=
  neutral_of_isInert fun _ hc => isInert_of_isDigit (isDigit_of_mem_toString hc)

/-- A text without quotes may stand in a quotation. -/
theorem quotesDoubled_of_isInert {cs : List Char} (h : ∀ c ∈ cs, isInert c) : quotesDoubled cs := by
  have hquote : isInert '\x27' = false := by decide
  fun_induction quotesDoubled cs with
  | case1 => rfl
  | case2 rest ih =>
    have hfirst := h _ List.mem_cons_self
    rw [hquote] at hfirst
    cases hfirst
  | case3 c rest hpair ih =>
    obtain ⟨hc, hrest⟩ := List.forall_mem_cons.1 h
    have hne : c ≠ '\x27' := by
      rintro rfl
      rw [hquote] at hc
      cases hc
    rw [decide_eq_true hne, Bool.true_and]
    exact ih hrest

end Neutral

end SqlText.Text
