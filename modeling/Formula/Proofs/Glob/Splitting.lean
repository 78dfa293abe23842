import Formula.Glob
import Mathlib.Data.List.Basic
import Mathlib.Data.List.Infix

/-!
# Splitting a text among a pattern

A text fits a pattern when it falls into runs, one for each character of the pattern, and each
character takes its run. A matcher that looks for the pieces of the pattern from left to right, and
keeps the first place where a piece fits, finds such a way to split the text whenever there is one:
behind a star that follows, a piece that ends earlier leaves no less to choose from.
-/

namespace Formula.Glob

variable {policy : CasePolicy}

/-! ### Texts that fit -/

/-- That a character of a pattern takes a run of a text. -/
inductive Takes (policy : CasePolicy) : Char → List Char → Prop
  | star (run : List Char) : Takes policy '*' run
  | any (c : Char) : Takes policy '?' [c]
  | letter {p c : Char} (star : p ≠ '*') (any : p ≠ '?') (equal : policy.charsEqual p c = true) :
      Takes policy p [c]

/-- That a text can be split among the characters of a pattern. -/
def Splits (policy : CasePolicy) (pattern text : List Char) : Prop :=
  ∃ runs, text = runs.flatten ∧ List.Forall₂ (Takes policy) pattern runs

/-- What a character of a pattern asks for: any run, or one character for a part. -/
inductive Step where
  | star
  | one (part : Part)
  deriving DecidableEq

/-- What a character asks for. -/
def Step.ofChar (c : Char) : Step := if c = '*' then .star else .one (Part.ofChar c)

/-- That a text falls into runs for steps. -/
inductive Fits (policy : CasePolicy) : List Step → List Char → Prop
  | nil : Fits policy [] []
  | one {part : Part} {c : Char} {steps : List Step} {cs : List Char}
      (takes : part.takes policy c = true) (rest : Fits policy steps cs) :
      Fits policy (.one part :: steps) (c :: cs)
  | star {steps : List Step} {cs : List Char} (run : List Char) (rest : Fits policy steps cs) :
      Fits policy (.star :: steps) (run ++ cs)

lemma takes_ofChar {p c : Char} (star : p ≠ '*') :
    (Part.ofChar p).takes policy c = true ↔ Takes policy p [c] := by
  unfold Part.ofChar
  split
  · next any =>
    subst any
    exact iff_of_true rfl (.any c)
  · next any =>
    constructor
    · exact .letter star any
    · rintro (_ | _ | ⟨-, -, equal⟩)
      · exact absurd rfl star
      · exact absurd rfl any
      · exact equal

/-- A character other than a star takes one character. -/
lemma Takes.eq_singleton {p : Char} {run : List Char} (h : Takes policy p run) (star : p ≠ '*') :
    ∃ c, run = [c] := by
  cases h with
  | star => exact absurd rfl star
  | any c => exact ⟨c, rfl⟩
  | letter => exact ⟨_, rfl⟩

/-- Splitting among characters is fitting the steps that they ask for. -/
lemma splits_iff_fits {pattern text : List Char} :
    Splits policy pattern text ↔ Fits policy (pattern.map Step.ofChar) text := by
  constructor
  · rintro ⟨runs, rfl, takes⟩
    induction takes with
    | nil => exact .nil
    | @cons p run pattern runs takes _ ih =>
      rw [List.map_cons, Step.ofChar]
      split
      · exact .star run ih
      · next star =>
        obtain ⟨c, rfl⟩ := takes.eq_singleton star
        exact .one ((takes_ofChar star).2 takes) ih
  · intro fits
    induction pattern generalizing text with
    | nil =>
      cases fits
      exact ⟨[], rfl, .nil⟩
    | cons p pattern ih =>
      rw [List.map_cons, Step.ofChar] at fits
      split at fits
      · next star =>
        subst star
        obtain _ | _ | ⟨run, rest⟩ := fits
        obtain ⟨runs, rfl, takes⟩ := ih rest
        exact ⟨run :: runs, rfl, .cons (.star run) takes⟩
      · next star =>
        obtain _ | ⟨takes, rest⟩ := fits
        obtain ⟨runs, rfl, takes'⟩ := ih rest
        exact ⟨_ :: runs, rfl, .cons ((takes_ofChar star).1 takes) takes'⟩

/-! ### Steps one after the other -/

lemma fits_nil_iff {cs : List Char} : Fits policy [] cs ↔ cs = [] := by
  constructor
  · rintro ⟨⟩
    rfl
  · rintro rfl
    exact .nil

lemma fits_one_cons_iff {part : Part} {steps : List Step} {c : Char} {cs : List Char} :
    Fits policy (.one part :: steps) (c :: cs) ↔
      part.takes policy c = true ∧ Fits policy steps cs := by
  constructor
  · rintro (_ | ⟨takes, rest⟩)
    exact ⟨takes, rest⟩
  · rintro ⟨takes, rest⟩
    exact .one takes rest

/-- A star leaves any end of the text to the steps behind it. -/
lemma fits_star_iff {steps : List Step} {cs : List Char} :
    Fits policy (.star :: steps) cs ↔ ∃ rest, rest <:+ cs ∧ Fits policy steps rest := by
  constructor
  · rintro (_ | _ | ⟨run, rest⟩)
    exact ⟨_, List.suffix_append .., rest⟩
  · rintro ⟨rest, ⟨run, rfl⟩, fits⟩
    exact .star run fits

/-- Behind a star more text is no less to choose from. -/
lemma Fits.of_suffix {steps : List Step} {rest cs : List Char}
    (h : Fits policy (.star :: steps) rest) (suffix : rest <:+ cs) :
    Fits policy (.star :: steps) cs := by
  obtain ⟨last, suffix', fits⟩ := fits_star_iff.1 h
  exact fits_star_iff.2 ⟨last, suffix'.trans suffix, fits⟩

/-- A star takes nothing, or it takes the first character and goes on. -/
lemma fits_star_cons_iff {steps : List Step} {c : Char} {cs : List Char} :
    Fits policy (.star :: steps) (c :: cs) ↔
      Fits policy steps (c :: cs) ∨ Fits policy (.star :: steps) cs := by
  constructor
  · intro fits
    obtain ⟨rest, suffix, fits⟩ := fits_star_iff.1 fits
    rcases List.suffix_cons_iff.1 suffix with rfl | suffix
    · exact .inl fits
    · exact .inr (fits_star_iff.2 ⟨rest, suffix, fits⟩)
  · rintro (fits | fits)
    · exact .star [] fits
    · exact fits.of_suffix (List.suffix_cons c cs)

/-! ### Pieces -/

/-- The steps of a piece. -/
def ones (parts : List Part) : List Step := parts.map .one

/-- The steps of pieces, with a star before each. -/
def starred (tails : List (List Part)) : List Step :=
  tails.flatMap fun parts => .star :: ones parts

@[simp] lemma ones_cons (part : Part) (parts : List Part) :
    ones (part :: parts) = .one part :: ones parts := rfl

/-- The pieces of a pattern say what its characters ask for. -/
lemma map_ofChar_eq (pattern : List Char) :
    pattern.map Step.ofChar = ones (pieces pattern).1 ++ starred (pieces pattern).2 := by
  induction pattern with
  | nil => rfl
  | cons c cs ih =>
    rw [List.map_cons, ih, pieces, Step.ofChar]
    split <;> rfl

/-- A piece that fits leaves what is behind as many characters as it has parts. -/
lemma suffix_of_strip? {parts : List Part} {cs rest : List Char}
    (h : strip? policy parts cs = some rest) :
    rest <:+ cs ∧ cs.length = parts.length + rest.length := by
  induction parts generalizing cs with
  | nil =>
    cases h
    exact ⟨List.suffix_refl _, (Nat.zero_add _).symm⟩
  | cons part parts ih =>
    cases cs with
    | nil => cases h
    | cons c cs =>
      rw [strip?] at h
      split at h
      · obtain ⟨suffix, length⟩ := ih h
        refine ⟨suffix.trans (List.suffix_cons c cs), ?_⟩
        simp only [List.length_cons, length]
        omega
      · cases h

/-- A text fits a piece and what follows when the piece can be stripped off it and the rest fits. -/
lemma fits_ones_append_iff {parts : List Part} {steps : List Step} {cs : List Char} :
    Fits policy (ones parts ++ steps) cs ↔
      ∃ rest, strip? policy parts cs = some rest ∧ Fits policy steps rest := by
  induction parts generalizing cs with
  | nil => simp [ones, strip?]
  | cons part parts ih =>
    cases cs with
    | nil =>
      refine iff_of_false ?_ (by simp [strip?])
      rintro ⟨⟩
    | cons c cs =>
      rw [ones_cons, List.cons_append, fits_one_cons_iff, ih, strip?]
      by_cases takes : part.takes policy c = true <;> simp [takes]

/-- Where a piece fits first, it leaves a text that ends with what it leaves anywhere behind. -/
lemma suffix_of_strip?_of_suffix {parts : List Part} {cs later rest rest' : List Char}
    (first : strip? policy parts cs = some rest) (suffix : later <:+ cs)
    (second : strip? policy parts later = some rest') : rest' <:+ rest := by
  obtain ⟨suffix₁, length₁⟩ := suffix_of_strip? first
  obtain ⟨suffix₂, length₂⟩ := suffix_of_strip? second
  have shorter := suffix.length_le
  exact List.suffix_of_suffix_length_le (suffix₂.trans suffix) suffix₁ (by omega)

/-- Between two stars the first place where a piece fits is as good as any. -/
lemma fits_star_ones_star_iff {parts : List Part} {steps : List Step} {cs : List Char} :
    Fits policy (.star :: (ones parts ++ .star :: steps)) cs ↔
      ∃ rest, seek? policy parts cs = some rest ∧ Fits policy (.star :: steps) rest := by
  induction cs with
  | nil =>
    rw [fits_star_iff, seek?]
    simp [fits_ones_append_iff]
  | cons c cs ih =>
    rw [fits_star_cons_iff, ih, fits_ones_append_iff, seek?]
    cases here : strip? policy parts (c :: cs) with
    | none => simp
    | some rest =>
      constructor
      · rintro (here | ⟨rest', found, fits⟩)
        · exact here
        · have later := ih.2 ⟨rest', found, fits⟩
          obtain ⟨last, suffix, fits⟩ := fits_star_iff.1 later
          obtain ⟨rest', there, fits⟩ := fits_ones_append_iff.1 fits
          have behind := suffix.trans (List.suffix_cons c cs)
          have suffix' := suffix_of_strip?_of_suffix here behind there
          exact ⟨rest, rfl, fits.of_suffix suffix'⟩
      · exact .inl

/-- The piece behind the last star has its place at the end. -/
lemma fits_star_ones_iff {parts : List Part} {cs : List Char} :
    Fits policy (.star :: ones parts) cs ↔
      strip? policy parts (cs.drop (cs.length - parts.length)) = some [] := by
  have whole {rest : List Char} :
      Fits policy (ones parts) rest ↔ strip? policy parts rest = some [] := by
    simpa [fits_nil_iff] using @fits_ones_append_iff policy parts [] rest
  rw [fits_star_iff]
  constructor
  · rintro ⟨rest, suffix, fits⟩
    have fits := whole.1 fits
    have length : rest.length = parts.length := (suffix_of_strip? fits).2
    rwa [← length, ← List.suffix_iff_eq_drop.1 suffix]
  · intro fits
    exact ⟨_, List.drop_suffix _ _, whole.2 fits⟩

/-- Looking for the pieces one after the other finds out whether they fit. -/
lemma floats_iff_fits {tails : List (List Part)} {cs : List Char} :
    floats policy tails cs = true ↔ Fits policy (starred tails) cs := by
  induction tails generalizing cs with
  | nil => rw [floats, List.isEmpty_iff, starred, List.flatMap_nil, fits_nil_iff]
  | cons parts tails ih =>
    cases tails with
    | nil =>
      have last : starred [parts] = .star :: ones parts := by simp [starred]
      rw [floats, beq_iff_eq, last, fits_star_ones_iff]
    | cons parts' tails =>
      have more : starred (parts :: parts' :: tails) =
          .star :: (ones parts ++ .star :: (ones parts' ++ starred tails)) := by
        simp [starred]
      have rest : starred (parts' :: tails) = .star :: (ones parts' ++ starred tails) := by
        simp [starred]
      rw [more, fits_star_ones_star_iff, ← rest, floats]
      · cases found : seek? policy parts cs with
        | none => simp
        | some cs => simp [ih]
      · simp

/-- A text is accepted when it fits what the characters of the pattern ask for. -/
lemma accepts_iff_fits {pattern text : String} :
    (ofText pattern policy).accepts text = true ↔
      Fits policy (pattern.toList.map Step.ofChar) text.toList := by
  rw [map_ofChar_eq, fits_ones_append_iff, accepts, ofText]
  cases started : strip? policy (pieces pattern.toList).1 text.toList with
  | none => simp
  | some cs => simp [floats_iff_fits]

end Formula.Glob
