import Formula.Proofs.Glob.Splitting

/-!
# Matching in one pass

A glob can also be matched in one pass over pattern and text that, at a mismatch, goes back to the
last star and lets it take one character more. Earlier stars are forgotten, and so is every star
that stands behind another. This pass gives the same answer as the matcher that looks for pieces,
and both say whether the text can be split among the characters of the pattern.
-/

namespace Formula.Glob

variable {policy : CasePolicy}

/-! ### The pass -/

/-- The steps with what one more character asks for, unless it is a star behind a star. -/
def push (steps : List Step) (c : Char) : List Step :=
  if Step.ofChar c = .star ∧ steps.getLast? = some .star then steps else steps ++ [Step.ofChar c]

/-- What the characters of a pattern ask for, with one star in place of several in a row. -/
def collapsed (pattern : List Char) : List Step := pattern.foldl push []

/-- Where to go back to: behind the last star, and to the text that was tried there last. -/
structure Anchor where
  steps : List Step
  text : List Char

/-- One more character goes to the star. -/
def Anchor.later (anchor : Anchor) : Anchor := ⟨anchor.steps, anchor.text.tail⟩

@[simp] lemma Anchor.steps_later (anchor : Anchor) : anchor.later.steps = anchor.steps := rfl

@[simp] lemma Anchor.text_later (anchor : Anchor) : anchor.later.text = anchor.text.tail := rfl

/-- How many characters the pass has before it, the ones that it may come back to included. -/
def Anchor.extent (text : List Char) : Option Anchor → ℕ
  | none => text.length
  | some anchor => max text.length anchor.text.length

/-- Whether a text fits steps or, failing that, what the last star left fits a later part of the
text that was tried there last. -/
def scan (policy : CasePolicy) (steps : List Step) (text : List Char) (anchor? : Option Anchor) :
    Bool :=
  match steps, text with
  | steps, [] => steps.all (· = .star)
  | .star :: steps, c :: cs => scan policy steps (c :: cs) (some ⟨steps, c :: cs⟩)
  | .one part :: steps, c :: cs =>
    if part.takes policy c then scan policy steps cs anchor?
    else
      match anchor? with
      | none => false
      | some anchor => scan policy anchor.steps anchor.text.tail (some anchor.later)
  | [], _ :: _ =>
    match anchor? with
    | none => false
    | some anchor => scan policy anchor.steps anchor.text.tail (some anchor.later)
termination_by (Anchor.extent text anchor?, steps.length + text.length)
decreasing_by
  · refine Prod.Lex.right' _ ?_ ?_
    · cases anchor? <;> simp only [Anchor.extent] <;> omega
    · simp
  · refine Prod.Lex.right' _ ?_ ?_
    · cases anchor? <;> simp only [Anchor.extent, List.length_cons] <;> omega
    · simp only [List.length_cons]
      omega
  all_goals
    refine Prod.Lex.left _ _ ?_
    simp only [Anchor.extent, Anchor.text_later, List.length_cons, List.length_tail]
    omega

/-! ### What the pass finds -/

lemma fits_star_empty_iff {steps : List Step} :
    Fits policy (.star :: steps) [] ↔ Fits policy steps [] := by
  simp [fits_star_iff]

/-- Nothing is left for the steps when only stars are. -/
lemma fits_empty_iff {steps : List Step} :
    Fits policy steps [] ↔ steps.all (· = .star) = true := by
  induction steps with
  | nil => exact iff_of_true .nil rfl
  | cons step steps ih =>
    cases step with
    | star => simp [fits_star_empty_iff, ih]
    | one part =>
      refine iff_of_false ?_ (by simp)
      rintro ⟨⟩

/-- A star behind a star takes nothing that the first one could not take. -/
lemma fits_star_star_iff {steps : List Step} {cs : List Char} :
    Fits policy (.star :: .star :: steps) cs ↔ Fits policy (.star :: steps) cs := by
  constructor
  · intro fits
    obtain ⟨rest, suffix, fits⟩ := fits_star_iff.1 fits
    exact fits.of_suffix suffix
  · exact .star []

/-- A star takes nothing or at least one character. -/
lemma fits_star_iff_tail {steps : List Step} {cs : List Char} :
    Fits policy (.star :: steps) cs ↔
      Fits policy steps cs ∨ Fits policy (.star :: steps) cs.tail := by
  cases cs with
  | nil => simp [fits_star_empty_iff]
  | cons c cs => exact fits_star_cons_iff

/-- That the pass has come from an anchor to the steps and the text before it: what lies between are
parts that have taken a character each. -/
def Anchor.Leaves (anchor : Anchor) (steps : List Step) (text : List Char) : Prop :=
  ∃ parts front, anchor.steps = ones parts ++ steps ∧ anchor.text = front ++ text ∧
    front.length = parts.length

/-- If the text fits when the last star takes more, then an end of the text that is left now fits
the steps that are left now: a star that comes next has all the choice that the last one had, which
may be forgotten. -/
lemma Anchor.Leaves.fits_star {anchor : Anchor} {steps : List Step} {text : List Char}
    (leaves : anchor.Leaves steps text)
    (fits : Fits policy (.star :: anchor.steps) anchor.text.tail) :
    Fits policy (.star :: steps) text := by
  obtain ⟨parts, front, behind, split, length⟩ := leaves
  obtain ⟨later, suffix, fits⟩ := fits_star_iff.1 fits
  rw [behind] at fits
  obtain ⟨rest, stripped, fits⟩ := fits_ones_append_iff.1 fits
  obtain ⟨suffix', length'⟩ := suffix_of_strip? stripped
  have all : rest <:+ front ++ text := by
    rw [← split]
    exact (suffix'.trans suffix).trans (List.tail_suffix _)
  have shorter : rest.length ≤ text.length := by
    have := suffix.length_le
    rw [List.length_tail, split, List.length_append] at this
    omega
  exact fits_star_iff.2
    ⟨rest, List.suffix_of_suffix_length_le all (List.suffix_append _ _) shorter, fits⟩

lemma Anchor.leaves_self (anchor : Anchor) : anchor.Leaves anchor.steps anchor.text :=
  ⟨[], [], rfl, rfl, rfl⟩

lemma Anchor.Leaves.tail {anchor : Anchor} {part : Part} {steps : List Step} {c : Char}
    {cs : List Char} (leaves : anchor.Leaves (.one part :: steps) (c :: cs)) :
    anchor.Leaves steps cs := by
  obtain ⟨parts, front, behind, split, length⟩ := leaves
  exact ⟨parts ++ [part], front ++ [c], by simp [behind, ones], by simp [split], by simp [length]⟩

/-- Going back once and being ready to go back again is what a star that takes more can do. -/
lemma Anchor.fits_later_iff {anchor : Anchor} :
    (Fits policy anchor.steps anchor.text.tail ∨
        ∃ back ∈ some anchor.later, Fits policy (.star :: back.steps) back.text.tail) ↔
      Fits policy (.star :: anchor.steps) anchor.text.tail := by
  rw [@fits_star_iff_tail policy anchor.steps anchor.text.tail]
  simp

/-- The pass finds out whether the text fits, now or when the last star takes more. -/
lemma scan_iff {steps : List Step} {text : List Char} {anchor? : Option Anchor}
    (leaves : ∀ anchor ∈ anchor?, anchor.Leaves steps text) :
    scan policy steps text anchor? = true ↔
      Fits policy steps text ∨
        ∃ anchor ∈ anchor?, Fits policy (.star :: anchor.steps) anchor.text.tail := by
  fun_induction scan policy steps text anchor? with
  | case1 anchor? steps =>
    -- The text is used up.
    rw [← @fits_empty_iff policy]
    constructor
    · exact .inl
    · rintro (fits | ⟨anchor, back, fits⟩)
      · exact fits
      · exact fits_star_empty_iff.1 ((leaves anchor back).fits_star fits)
  | case2 anchor? steps c cs ih =>
    -- The star becomes the anchor, and nothing is lost with the one before it.
    have found := ih (by simpa using Anchor.leaves_self ⟨steps, c :: cs⟩)
    have here : scan policy steps (c :: cs) (some ⟨steps, c :: cs⟩) = true ↔
        Fits policy (.star :: steps) (c :: cs) := by
      rw [found, fits_star_cons_iff]
      simp
    rw [here]
    constructor
    · exact .inl
    · rintro (fits | ⟨anchor, back, fits⟩)
      · exact fits
      · exact fits_star_star_iff.1 ((leaves anchor back).fits_star fits)
  | case3 anchor? part steps c cs takes ih =>
    rw [ih fun anchor back => (leaves anchor back).tail, fits_one_cons_iff]
    simp [takes]
  | case4 part steps c cs refuses =>
    simp [fits_one_cons_iff, refuses]
  | case5 part steps c cs refuses anchor ih =>
    -- At a mismatch the star of the anchor takes one character more.
    rw [ih (by simpa using anchor.later.leaves_self), Anchor.fits_later_iff]
    simp [fits_one_cons_iff, refuses]
  | case6 c cs => simp [fits_nil_iff]
  | case7 c cs anchor ih =>
    rw [ih (by simpa using anchor.later.leaves_self), Anchor.fits_later_iff]
    simp [fits_nil_iff]

/-! ### Stars in a row -/

lemma fits_append_congr {before steps steps' : List Step} {cs : List Char}
    (h : ∀ cs, Fits policy steps cs ↔ Fits policy steps' cs) :
    Fits policy (before ++ steps) cs ↔ Fits policy (before ++ steps') cs := by
  induction before generalizing cs with
  | nil => exact h cs
  | cons step before ih =>
    cases step with
    | star => simp only [List.cons_append, fits_star_iff, ih]
    | one part =>
      cases cs with
      | nil => exact iff_of_false (by rintro ⟨⟩) (by rintro ⟨⟩)
      | cons c cs => simp only [List.cons_append, fits_one_cons_iff, ih]

lemma fits_push_append_iff {steps behind : List Step} {c : Char} {cs : List Char} :
    Fits policy (push steps c ++ behind) cs ↔
      Fits policy (steps ++ Step.ofChar c :: behind) cs := by
  rw [push]
  split
  · next doubled =>
    obtain ⟨star, last⟩ := doubled
    obtain ⟨before, rfl⟩ := List.getLast?_eq_some_iff.1 last
    rw [star, List.append_assoc, List.append_assoc]
    exact fits_append_congr fun cs => fits_star_star_iff.symm
  · rw [List.append_assoc, List.singleton_append]

/-- One star for several in a row is as good. -/
lemma fits_collapsed_iff {pattern text : List Char} :
    Fits policy (collapsed pattern) text ↔ Fits policy (pattern.map Step.ofChar) text := by
  have pushed (before : List Step) : Fits policy (pattern.foldl push before) text ↔
      Fits policy (before ++ pattern.map Step.ofChar) text := by
    induction pattern generalizing before with
    | nil => simp
    | cons c pattern ih => rw [List.foldl_cons, ih, fits_push_append_iff, List.map_cons]
  exact pushed []

/-- A text is accepted if and only if it can be split among the characters of the pattern, and one
pass that goes back to the last star only says the same, whether stars in a row were collapsed or
not. -/
theorem accepts_iff_splits (policy : CasePolicy) (pattern text : String) :
    ((ofText pattern policy).accepts text = true ↔ Splits policy pattern.toList text.toList) ∧
      scan policy (collapsed pattern.toList) text.toList none =
        (ofText pattern policy).accepts text ∧
      scan policy (pattern.toList.map Step.ofChar) text.toList none =
        (ofText pattern policy).accepts text := by
  have first (steps : List Step) :
      scan policy steps text.toList none = true ↔ Fits policy steps text.toList := by
    rw [scan_iff (by simp)]
    simp
  refine ⟨?_, ?_, ?_⟩
  · rw [accepts_iff_fits, splits_iff_fits]
  · rw [Bool.eq_iff_iff, first, fits_collapsed_iff, accepts_iff_fits]
  · rw [Bool.eq_iff_iff, first, accepts_iff_fits]

end Formula.Glob
