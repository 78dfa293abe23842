import Formula.Criterion
import Mathlib.Data.List.Infix
import Mathlib.Data.Nat.Notation
import Mathlib.Tactic.Lemma

/-!
# What operands say

An operand of a filtering function is a value to be equal to, a comparison or a glob. A text is a
comparison when it starts with the sign of one; of several such signs the longest counts. A glob is
held against the text of a candidate, which shows the decimal separator in numbers and nowhere else.
-/

namespace Formula

/-! ### Comparison signs -/

namespace BinaryOp

/-- The operators that compare. -/
def Compares (op : BinaryOp) : Prop := op ∈ [BinaryOp.ne, .le, .lt, .ge, .gt, .eq]

/-- That a text starts with the sign of a comparison, and with no longer one. -/
structure Leads (op : BinaryOp) (text rest : List Char) : Prop where
  compares : op.Compares
  starts : text = op.sign.toList ++ rest
  longest : ∀ other : BinaryOp, other.Compares → other.sign.toList <+: text →
    other.sign.toList.length ≤ op.sign.toList.length

/-- That a text starts with no comparison sign. -/
def NoneLeads (text : List Char) : Prop :=
  ∀ op : BinaryOp, op.Compares → ¬ op.sign.toList <+: text

/-- Comparisons with the same sign are the same. -/
lemma Compares.eq_of_sign {op other : BinaryOp} (h : op.Compares) (h' : other.Compares)
    (same : op.sign.toList = other.sign.toList) : op = other := by
  revert same
  simp only [Compares, List.mem_cons, List.not_mem_nil, or_false] at h h'
  rcases h with rfl | rfl | rfl | rfl | rfl | rfl <;>
    rcases h' with rfl | rfl | rfl | rfl | rfl | rfl <;> decide

/-- A text has at most one longest sign. -/
lemma Leads.unique {op other : BinaryOp} {text rest rest' : List Char} (h : op.Leads text rest)
    (h' : other.Leads text rest') : op = other ∧ rest = rest' := by
  have starts : op.sign.toList ++ rest = other.sign.toList ++ rest' :=
    h.starts.symm.trans h'.starts
  have le := h'.longest op h.compares ⟨rest, h.starts.symm⟩
  have ge := h.longest other h'.compares ⟨rest', h'.starts.symm⟩
  obtain ⟨sign, rest_eq⟩ := List.append_inj starts (Nat.le_antisymm le ge)
  exact ⟨h.compares.eq_of_sign h'.compares sign, rest_eq⟩

/-- A comparison between values answers a truth value. -/
lemma Compares.eq_boolean {op : BinaryOp} (h : op.Compares) {a b v : Value}
    (run : op.apply a b = .ok v) : ∃ decided, v = .boolean decided := by
  simp only [Compares, List.mem_cons, List.not_mem_nil, or_false] at h
  rcases h with rfl | rfl | rfl | rfl | rfl | rfl
  case inl | inr.inr.inr.inr.inr =>
    simp only [apply, Except.ok.injEq] at run
    exact ⟨_, run.symm⟩
  all_goals
    simp only [apply, order] at run
    split at run
    · exact ⟨_, (Except.ok.inj run).symm⟩
    · cases run

end BinaryOp

namespace Criterion

open BinaryOp

/-- The signs are those of the comparisons. -/
lemma mem_signs_iff {sign : List Char} {op : BinaryOp} :
    (sign, op) ∈ signs ↔ op.Compares ∧ sign = op.sign.toList := by
  constructor
  · intro mem
    simp only [signs, List.mem_cons, List.not_mem_nil, or_false, Prod.mk.injEq] at mem
    rcases mem with ⟨rfl, rfl⟩ | ⟨rfl, rfl⟩ | ⟨rfl, rfl⟩ | ⟨rfl, rfl⟩ | ⟨rfl, rfl⟩ | ⟨rfl, rfl⟩ <;>
      exact ⟨by simp [Compares], rfl⟩
  · rintro ⟨compares, rfl⟩
    simp only [Compares, List.mem_cons, List.not_mem_nil, or_false] at compares
    rcases compares with rfl | rfl | rfl | rfl | rfl | rfl <;>
      simp [signs, BinaryOp.sign]

/-- No sign starts a later one, so the first sign that a text starts with is the longest. -/
lemma pairwise_signs : signs.Pairwise fun s t => ¬ s.1 <+: t.1 := by
  decide

lemma leads_of_splitSign? {text rest : List Char} {op : BinaryOp}
    (h : splitSign? text = some (op, rest)) : op.Leads text rest := by
  obtain ⟨⟨sign, op'⟩, found, eq⟩ := Option.map_eq_some_iff.1 h
  obtain ⟨rfl, rfl⟩ := Prod.mk.inj eq
  obtain ⟨starts, earlier, later, split, passed⟩ := List.find?_eq_some_iff_append.1 found
  have starts : sign <+: text := List.isPrefixOf_iff_prefix.1 starts
  obtain ⟨compares, rfl⟩ := mem_signs_iff.1 (split ▸ by simp : (sign, op') ∈ signs)
  refine ⟨compares, ?_, fun other compares' starts' => ?_⟩
  · obtain ⟨rest, rfl⟩ := starts
    simp
  · by_contra longer
    have sorted := pairwise_signs
    rw [split, List.pairwise_append, List.pairwise_cons] at sorted
    have mem : (other.sign.toList, other) ∈ signs := mem_signs_iff.2 ⟨compares', rfl⟩
    rw [split] at mem
    rcases List.mem_append.1 mem with mem | mem
    · simpa [List.isPrefixOf_iff_prefix.2 starts'] using passed _ mem
    rcases List.mem_cons.1 mem with eq | mem
    · rw [Prod.mk.injEq] at eq
      exact longer (by rw [eq.1])
    · -- The shorter of two starts of a text starts the longer one.
      have short := List.prefix_of_prefix_length_le starts starts'
        (Nat.le_of_lt (Nat.lt_of_not_le longer))
      exact sorted.2.1.1 _ mem short

lemma splitSign?_eq_some_iff {text rest : List Char} {op : BinaryOp} :
    splitSign? text = some (op, rest) ↔ op.Leads text rest := by
  refine ⟨leads_of_splitSign?, fun leads => ?_⟩
  cases split : splitSign? text with
  | some found =>
    obtain ⟨rfl, rfl⟩ := (leads_of_splitSign? split).unique leads
    rfl
  | none =>
    have absent := List.find?_eq_none.1 (Option.map_eq_none_iff.1 split)
    have mem := mem_signs_iff.2 ⟨leads.compares, rfl⟩
    exact absurd (List.isPrefixOf_iff_prefix.2 ⟨rest, leads.starts.symm⟩) (absent _ mem)

lemma splitSign?_eq_none_iff {text : List Char} : splitSign? text = none ↔ NoneLeads text := by
  rw [splitSign?, Option.map_eq_none_iff, List.find?_eq_none]
  constructor
  · intro absent op compares starts
    exact absent _ (mem_signs_iff.2 ⟨compares, rfl⟩) (List.isPrefixOf_iff_prefix.2 starts)
  · rintro none ⟨sign, op⟩ mem starts
    obtain ⟨compares, rfl⟩ := mem_signs_iff.1 mem
    exact none op compares (List.isPrefixOf_iff_prefix.1 starts)

/-- What starts with no character of a sign leaves a sign in front of it as it is. -/
lemma leads_sign {op : BinaryOp} (compares : op.Compares) {rest : List Char}
    (foreign : ∀ c ∈ rest.head?, c ∉ ['<', '>', '=']) :
    op.Leads (op.sign.toList ++ rest) rest := by
  refine ⟨compares, rfl, fun other compares' starts => ?_⟩
  by_contra longer
  -- The longer sign goes on where this one ends, with the first character behind it.
  have starts' : op.sign.toList <+: other.sign.toList :=
    List.prefix_of_prefix_length_le (List.prefix_append _ _) starts (Nat.le_of_not_le longer)
  obtain ⟨more, eq⟩ := starts'
  rw [← eq, List.prefix_append_right_inj] at starts
  cases more with
  | nil =>
    rw [List.append_nil] at eq
    rw [eq] at longer
    exact longer (le_refl _)
  | cons c more =>
    obtain ⟨rest, rfl⟩ := starts
    have characters : ∀ s ∈ signs, s.1 ⊆ ['<', '>', '='] := by decide
    refine foreign c rfl (characters _ (mem_signs_iff.2 ⟨compares', rfl⟩) ?_)
    rw [← eq]
    exact List.mem_append_right _ List.mem_cons_self

/-! ### The forms of an operand -/

/-- An operand is no text, or a text that starts with a sign, or any other text. -/
lemma operand_cases (operand : Value) :
    operand.kind ≠ .text ∨
    (∃ (text : String) (op : BinaryOp) (rest : List Char), operand = .text text ∧
      op.Leads text.toList rest) ∨
    ∃ text, operand = .text text ∧ NoneLeads text.toList := by
  cases operand with
  | text text =>
    cases split : splitSign? text.toList with
    | some found => exact .inr (.inl ⟨text, _, _, rfl, leads_of_splitSign? split⟩)
    | none => exact .inr (.inr ⟨text, rfl, splitSign?_eq_none_iff.1 split⟩)
  | _ => exact .inl nofun

variable {c : Context} {text : String}

lemma compile_of_kind {operand : Value} (h : operand.kind ≠ .text) :
    compile c operand = .ok (.equals operand) := by
  cases operand with
  | text s => exact absurd rfl h
  | _ => rfl

lemma compile_of_leads {op : BinaryOp} {rest : List Char} (h : op.Leads text.toList rest) :
    compile c (.text text) = (c.parse (String.ofList rest)).map (.compare op) := by
  simp only [compile, splitSign?_eq_some_iff.2 h]
  cases c.parse (String.ofList rest) <;> rfl

lemma compile_of_noneLeads (h : NoneLeads text.toList) :
    compile c (.text text) = .ok (.glob (.ofText text c.policy)) := by
  simp only [compile, splitSign?_eq_none_iff.2 h]

end Criterion

/-! ### The text of a candidate -/

mutual

/-- The text of a value in which numbers show a decimal separator. -/
def Value.textForm (decimal : Char) : Value → String
  | .array items => Text.bracketed (Value.textForms decimal items)
  | .number x => Criterion.localized decimal (Number.write .plain x)
  | v => v.toText
termination_by structural v => v

/-- The texts of the values of a list. -/
def Value.textForms (decimal : Char) : List Value → List String
  | [] => []
  | v :: vs => v.textForm decimal :: Value.textForms decimal vs
termination_by structural vs => vs

end

namespace Criterion

variable {c : Context}

mutual

/-- Where values are converted in the usual way, every candidate has a text. -/
lemma candidateText_eq_textForm (usual : c.convert = Value.cast) (v : Value) :
    candidateText c v = .ok (v.textForm c.separators.decimal) := by
  match v with
  | .array items =>
    simp only [candidateText, candidateTexts_eq_textForms usual items, Value.textForm]
    rfl
  | .number x => simp only [candidateText, usual, Value.cast, Value.toText, Value.textForm]
  | .text s => simp only [candidateText, usual, Value.cast, Value.textForm]
  | .boolean b => simp only [candidateText, usual, Value.cast, Value.textForm]
  | .null => simp only [candidateText, usual, Value.cast, Value.textForm]
  | .lambda parameters body => simp only [candidateText, usual, Value.cast, Value.textForm]

lemma candidateTexts_eq_textForms (usual : c.convert = Value.cast) (values : List Value) :
    candidateTexts c values = .ok (Value.textForms c.separators.decimal values) := by
  match values with
  | [] => rfl
  | v :: vs =>
    simp only [candidateTexts, candidateText_eq_textForm usual v,
      candidateTexts_eq_textForms usual vs, Value.textForms]
    rfl

end

end Criterion

end Formula
