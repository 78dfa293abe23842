import Formula.Proofs.Glob.Splitting
import Mathlib.Data.List.Forall2

/-!
# Globs and names

A pattern without wildcards is a text, so its glob and the comparison of names can be held against
each other. Names are compared by their lower-case forms as wholes, while a character of a pattern
takes one character of the text. The two part ways over one letter, the capital `I` with a dot: its
lower-case form is two characters long, and as a pattern it does not take the two of them.
-/

namespace Formula

/-! ### Lower-case forms of one character -/

namespace Text

/-- The capital `I` with a dot above. -/
def dottedI : Char := '\u0130'

/-- No other character has a lower-case form of several characters. -/
lemma length_lower (c : Char) : (lower c).length = if c = dottedI then 2 else 1 := by
  have dotted : c.toNat = 0x130 ↔ c = dottedI := Char.toNat_inj (d := dottedI)
  unfold lower
  by_cases here : c = dottedI
  · subst here
    rfl
  · rw [if_neg here, if_neg (mt dotted.1 here)]
    split <;> rfl

lemma lower_ne_nil (c : Char) : lower c ≠ [] := by
  rw [← List.length_pos_iff, length_lower]
  split <;> decide

/-- Only the dotted letter has its lower-case form. -/
lemma eq_dottedI_iff_of_lower_eq {c d : Char} (same : lower c = lower d) :
    c = dottedI ↔ d = dottedI := by
  have length := congrArg List.length same
  rw [length_lower, length_lower] at length
  by_cases hc : c = dottedI <;> by_cases hd : d = dottedI <;> simp [hc, hd] at length ⊢

/-- That a letter stands in the same places of two texts. -/
def SamePlaces (letter : Char) (cs ds : List Char) : Prop :=
  ∀ i : ℕ, cs[i]? = some letter ↔ ds[i]? = some letter

variable {letter c d : Char} {cs ds : List Char}

lemma lowerText_cons : lowerText (c :: cs) = lower c ++ lowerText cs := List.flatMap_cons

lemma lowerText_eq_nil_iff : lowerText cs = [] ↔ cs = [] := by
  cases cs with
  | nil => simp [lowerText]
  | cons c cs => simp [lowerText_cons, lower_ne_nil]

lemma samePlaces_cons_iff :
    SamePlaces letter (c :: cs) (d :: ds) ↔ (c = letter ↔ d = letter) ∧ SamePlaces letter cs ds := by
  constructor
  · intro same
    exact ⟨by simpa using same 0, fun i => by simpa using same (i + 1)⟩
  · rintro ⟨first, rest⟩ (_ | i)
    · simpa using first
    · simpa using rest i

lemma samePlaces_of_not_mem (hc : letter ∉ cs) (hd : letter ∉ ds) : SamePlaces letter cs ds :=
  fun _ => iff_of_false (fun h => hc (List.mem_of_getElem? h)) fun h => hd (List.mem_of_getElem? h)

/-- Texts agree in lower case character by character when their lower-case forms agree as wholes and
the dotted letter stands in the same places. -/
lemma forall₂_lower_iff :
    List.Forall₂ (fun c d => lower c = lower d) cs ds ↔
      lowerText cs = lowerText ds ∧ SamePlaces dottedI cs ds := by
  induction cs generalizing ds with
  | nil =>
    rw [List.forall₂_nil_left_iff, lowerText_eq_nil_iff.2 rfl, eq_comm (b := lowerText ds),
      lowerText_eq_nil_iff, iff_self_and]
    rintro rfl
    exact fun _ => Iff.rfl
  | cons c cs ih =>
    cases ds with
    | nil =>
      refine iff_of_false (by rintro ⟨⟩) ?_
      rw [lowerText_eq_nil_iff.2 rfl, lowerText_eq_nil_iff]
      rintro ⟨⟨⟩, -⟩
    | cons d ds =>
      rw [List.forall₂_cons, ih, samePlaces_cons_iff]
      constructor
      · rintro ⟨same, rest, places⟩
        exact ⟨by rw [lowerText_cons, lowerText_cons, same, rest],
          eq_dottedI_iff_of_lower_eq same, places⟩
      · rintro ⟨whole, first, places⟩
        -- The first characters take equally much of the whole.
        have length : (lower c).length = (lower d).length := by
          rw [length_lower, length_lower, if_congr first rfl rfl]
        obtain ⟨same, rest⟩ := List.append_inj whole length
        exact ⟨same, rest, places⟩

end Text

/-! ### Patterns without wildcards -/

namespace CasePolicy

lemma charsEqual_insensitive_iff {c d : Char} :
    CasePolicy.insensitive.charsEqual c d ↔ Text.lower c = Text.lower d := by
  simp only [charsEqual, Bool.or_eq_true, beq_iff_eq, or_iff_right_iff_imp]
  rintro rfl
  rfl

/-- Names are equal when their characters are, one by one, and the characters of equal names are
unless the dotted letter stands in different places. -/
lemma forall₂_charsEqual_iff {policy : CasePolicy} {a b : String} :
    List.Forall₂ (fun c d => policy.charsEqual c d) a.toList b.toList ↔
      policy.namesEqual a b ∧
        (policy = .insensitive → Text.SamePlaces Text.dottedI a.toList b.toList) := by
  cases policy with
  | sensitive =>
    simp only [charsEqual, namesEqual, beq_iff_eq, List.forall₂_eq_eq_eq, String.toList_inj,
      reduceCtorEq, false_implies, and_true]
  | insensitive =>
    simp only [charsEqual_insensitive_iff, Text.forall₂_lower_iff, namesEqual, beq_iff_eq,
      forall_const]

end CasePolicy

namespace Glob

variable {policy : CasePolicy}

/-- Without wildcards a pattern fits the texts that have an equal character for each of its own. -/
lemma fits_plain_iff {cs ds : List Char} (star : '*' ∉ cs) (any : '?' ∉ cs) :
    Fits policy (cs.map Step.ofChar) ds ↔
      List.Forall₂ (fun c d => policy.charsEqual c d) cs ds := by
  induction cs generalizing ds with
  | nil => rw [List.map_nil, fits_nil_iff, List.forall₂_nil_left_iff]
  | cons c cs ih =>
    rw [List.mem_cons, not_or] at star any
    have step : Step.ofChar c = .one (.letter c) := by
      rw [Step.ofChar, if_neg (Ne.symm star.1), Part.ofChar, if_neg (Ne.symm any.1)]
    rw [List.map_cons, step]
    cases ds with
    | nil => exact iff_of_false (by rintro ⟨⟩) (by rintro ⟨⟩)
    | cons d ds =>
      rw [fits_one_cons_iff, ih star.2 any.2, List.forall₂_cons]
      rfl

/-- **Without wildcards a glob compares names, letter by letter.** Under either policy a pattern
without stars and question marks accepts the texts that are the same name as the pattern and have
the capital `I` with a dot in the same places, which matters only where case is disregarded: that
letter is the only one whose lower-case form has several characters, and a character of a pattern
takes just one. So the glob and the comparison of names agree on texts without that letter. -/
theorem accepts_iff_namesEqual (policy : CasePolicy) (pattern text : String)
    (star : '*' ∉ pattern.toList) (any : '?' ∉ pattern.toList) :
    ((ofText pattern policy).accepts text ↔
      policy.namesEqual pattern text ∧
        (policy = .insensitive → Text.SamePlaces Text.dottedI pattern.toList text.toList)) ∧
    (∀ c, (Text.lower c).length ≠ 1 ↔ c = Text.dottedI) ∧
    (Text.dottedI ∉ pattern.toList → Text.dottedI ∉ text.toList →
      (ofText pattern policy).accepts text = policy.namesEqual pattern text) := by
  have agrees : (ofText pattern policy).accepts text ↔ policy.namesEqual pattern text ∧
      (policy = .insensitive → Text.SamePlaces Text.dottedI pattern.toList text.toList) := by
    rw [accepts_iff_fits, fits_plain_iff star any, CasePolicy.forall₂_charsEqual_iff]
  refine ⟨agrees, fun c => by simp [Text.length_lower], fun pattern' text' => ?_⟩
  have places := Text.samePlaces_of_not_mem pattern' text'
  rw [Bool.eq_iff_iff, agrees]
  exact and_iff_left fun _ => places

/-- Where case is disregarded, `İstanbul` takes its spelling in capitals, as a name and as a pattern.
Its own lower-case form is the same name as well, but the pattern does not take it. -/
theorem accepts_iff_namesEqual_dotted :
    '*' ∉ "\u0130stanbul".toList ∧ '?' ∉ "\u0130stanbul".toList ∧
    (ofText "\u0130stanbul" .insensitive).accepts "\u0130STANBUL" ∧
    CasePolicy.insensitive.namesEqual "\u0130stanbul" "\u0130STANBUL" ∧
    Text.SamePlaces Text.dottedI "\u0130stanbul".toList "\u0130STANBUL".toList ∧
    CasePolicy.insensitive.namesEqual "\u0130stanbul" "i\u0307stanbul" ∧
    ¬ Text.SamePlaces Text.dottedI "\u0130stanbul".toList "i\u0307stanbul".toList := by
  have star : '*' ∉ "\u0130stanbul".toList := by decide
  have any : '?' ∉ "\u0130stanbul".toList := by decide
  have agrees (text : String) := (accepts_iff_namesEqual .insensitive _ text star any).1
  have taken : (ofText "\u0130stanbul" .insensitive).accepts "\u0130STANBUL" := by decide +kernel
  have refused : ¬ (ofText "\u0130stanbul" .insensitive).accepts "i\u0307stanbul" := by
    decide +kernel
  have same : CasePolicy.insensitive.namesEqual "\u0130stanbul" "i\u0307stanbul" := by
    decide +kernel
  obtain ⟨equal, places⟩ := (agrees _).1 taken
  exact ⟨star, any, taken, equal, places rfl, same,
    fun places => refused ((agrees _).2 ⟨same, fun _ => places⟩)⟩

/-- The dotted letter is the same name as the small letter with a dot above, which its glob does not
take. -/
theorem accepts_ne_namesEqual_of_dotted :
    ¬ ∀ (policy : CasePolicy) (pattern text : String), '*' ∉ pattern.toList → '?' ∉ pattern.toList →
      ((ofText pattern policy).accepts text ↔ policy.namesEqual pattern text) := by
  intro agree
  have agrees := agree .insensitive "\u0130" "i\u0307" (by decide) (by decide)
  have same : CasePolicy.insensitive.namesEqual "\u0130" "i\u0307" := by decide +kernel
  have refused : ¬ (ofText "\u0130" .insensitive).accepts "i\u0307" := by decide +kernel
  exact refused (agrees.2 same)

end Glob

end Formula
