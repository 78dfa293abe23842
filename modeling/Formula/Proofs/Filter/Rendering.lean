import Formula.Proofs.Filter.Operand

/-!
# What a candidate's text shows

A glob is held against the text of a candidate, and a cast gives the text of a value. The two are
the same text up to the decimal separator: wherever a number stands in the candidate, at whatever
depth, its point is shown as the separator, and nothing else is changed. To say where a number
stands, each character of the text is kept together with whether it belongs to one.
-/

namespace Formula

/-! ### Characters of numbers and others -/

/-- A character of a value's text, with whether it belongs to a number. -/
structure Glyph where
  char : Char
  numeric : Bool

namespace Glyph

/-- The characters of a text, all of them in a number or none. -/
def ofText (numeric : Bool) (s : String) : List Glyph := s.toList.map (⟨·, numeric⟩)

/-- The characters as they are. -/
def plainText (gs : List Glyph) : String := String.ofList (gs.map char)

/-- The character that is shown where numbers have this separator in place of their point. -/
def shown (decimal : Char) (g : Glyph) : Char :=
  if g.numeric ∧ g.char = '.' then decimal else g.char

/-- The characters that are shown where numbers have this separator. -/
def shownText (decimal : Char) (gs : List Glyph) : String := String.ofList (gs.map (shown decimal))

end Glyph

mutual

/-- The characters of a value's text; those of its number leaves are the characters of numbers. -/
def Value.glyphs : Value → List Glyph
  | .array items => Glyph.ofText false "[" ++ Value.itemGlyphs items ++ Glyph.ofText false "]"
  | .number x => Glyph.ofText true (Number.write .plain x)
  | .text s => Glyph.ofText false s
  | .boolean b => Glyph.ofText false (if b then "TRUE" else "FALSE")
  | .null => []
  | .lambda parameters _ => Glyph.ofText false (lambdaText parameters)
termination_by structural v => v

/-- The characters of the texts of a list's values, with a comma and a space between neighbours. -/
def Value.itemGlyphs : List Value → List Glyph
  | [] => []
  | [v] => v.glyphs
  | v :: w :: vs => v.glyphs ++ Glyph.ofText false ", " ++ Value.itemGlyphs (w :: vs)
termination_by structural vs => vs

end

namespace Glyph

variable {decimal : Char}

/-- A point that is shown as a point changes nothing. -/
lemma shown_point (g : Glyph) : g.shown '.' = g.char := by
  simp only [shown, ite_eq_right_iff, and_imp]
  intro _ point
  exact point.symm

lemma shownText_point (gs : List Glyph) : shownText '.' gs = plainText gs :=
  congrArg String.ofList (List.map_congr_left fun g _ => shown_point g)

@[simp] lemma shownText_nil : shownText decimal [] = "" := rfl

@[simp] lemma shownText_append (gs hs : List Glyph) :
    shownText decimal (gs ++ hs) = shownText decimal gs ++ shownText decimal hs := by
  simp [shownText]

@[simp] lemma shownText_ofText_false (s : String) : shownText decimal (ofText false s) = s := by
  simp [shownText, ofText, shown, Function.comp_def]

@[simp] lemma shownText_ofText_true (s : String) :
    shownText decimal (ofText true s) = Criterion.localized decimal s := by
  simp [shownText, ofText, shown, Criterion.localized, Function.comp_def]

end Glyph

/-! ### The text for a glob and the text of a cast -/

/-- A text in which a point is shown as a point is the text itself. -/
lemma Criterion.localized_point (s : String) : localized '.' s = s := by
  have same (c : Char) : (if c = '.' then '.' else c) = c := by
    simp only [ite_eq_right_iff]
    exact Eq.symm
  simp [localized, same]

namespace Value

mutual

/-- The text for a glob shows the separator in numbers and nowhere else. -/
lemma textForm_eq_shownText (decimal : Char) (v : Value) :
    v.textForm decimal = Glyph.shownText decimal v.glyphs := by
  match v with
  | .array items =>
    simp [textForm, glyphs, Text.bracketed, joined_textForms_eq_shownText decimal items,
      String.append_assoc]
  | .number x => simp [textForm, glyphs]
  | .text s => simp [textForm, toText, glyphs]
  | .boolean b => simp [textForm, toText, glyphs]
  | .null => simp [textForm, toText, glyphs]
  | .lambda parameters body => simp [textForm, toText, glyphs]

lemma joined_textForms_eq_shownText (decimal : Char) (vs : List Value) :
    Text.joined (textForms decimal vs) = Glyph.shownText decimal (itemGlyphs vs) := by
  match vs with
  | [] => simp [textForms, Text.joined, itemGlyphs]
  | [v] => simp [textForms, Text.joined, itemGlyphs, textForm_eq_shownText decimal v]
  | v :: w :: vs =>
    have later := joined_textForms_eq_shownText decimal (w :: vs)
    simp only [textForms] at later
    simp [textForms, Text.joined, itemGlyphs, textForm_eq_shownText decimal v, later,
      String.append_assoc]

end

mutual

/-- The text of a cast is the text for a glob where numbers keep their point. -/
lemma textForm_point (v : Value) : v.textForm '.' = v.toText := by
  match v with
  | .array items => simp [textForm, toText, textForms_point items]
  | .number x => simp [textForm, toText, Criterion.localized_point]
  | .text s => simp [textForm]
  | .boolean b => simp [textForm]
  | .null => simp [textForm]
  | .lambda parameters body => simp [textForm]

lemma textForms_point (vs : List Value) : textForms '.' vs = toTexts vs := by
  match vs with
  | [] => simp [textForms, toTexts]
  | v :: vs => simp [textForms, toTexts, textForm_point v, textForms_point vs]

end

end Value

namespace Criterion

/-- **Glob text is the text of the cast up to the decimal separator.** Where values are converted in
the usual way, every candidate has a text for globs. It has the characters that the cast to text
gives, but for the points in numbers, which are shown as the separator; and where the separator is a
point, it is the text of the cast. -/
theorem candidateText_eq_shownText (context : Context) (usual : context.convert = Value.cast)
    (v : Value) :
    v.cast .string = .ok (.text (Glyph.plainText v.glyphs)) ∧
    candidateText context v = .ok (Glyph.shownText context.separators.decimal v.glyphs) ∧
    (context.separators.decimal = '.' → (candidateText context v).map .text = v.cast .string) := by
  rw [candidateText_eq_textForm usual]
  refine ⟨?cast, ?glob, ?point⟩
  case cast =>
    rw [← Glyph.shownText_point, ← Value.textForm_eq_shownText, Value.textForm_point]
    rfl
  case glob => rw [Value.textForm_eq_shownText]
  case point =>
    intro point
    rw [point, Value.textForm_point]
    rfl

/-- With a comma for the point, `[1.5, "a.b", [-2.25, NULL], LAMBDA(x, x)]` shows `1,5` and `-2,25`
but keeps the point of `a.b`. -/
theorem candidateText_eq_shownText_comma :
    let comma : Context := .root { config := { separators := { decimal := ',', group := '.' } } }
    let point : Context := .root {}
    let v : Value := .array [.number 1.5, .text "a.b", .array [.number (-2.25), .null],
      .lambda ["x"] (.variable "x")]
    v.cast .string = .ok (.text "[1.5, a.b, [-2.25, ], LAMBDA(x)]") ∧
    candidateText comma v = .ok "[1,5, a.b, [-2,25, ], LAMBDA(x)]" ∧
    (candidateText point v).map .text = v.cast .string := by
  intro comma point v
  obtain ⟨cast, glob, -⟩ := candidateText_eq_shownText comma rfl v
  have same := (candidateText_eq_shownText point rfl v).2.2 rfl
  have castText : Glyph.plainText v.glyphs = "[1.5, a.b, [-2.25, ], LAMBDA(x)]" := by
    decide +kernel
  have globText : Glyph.shownText ',' v.glyphs = "[1,5, a.b, [-2,25, ], LAMBDA(x)]" := by
    decide +kernel
  exact ⟨castText ▸ cast, globText ▸ glob, same⟩

end Criterion

end Formula
