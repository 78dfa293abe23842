import Formula.Proofs.Filter.Compiling
import Formula.Proofs.Filter.Selection
import Formula.Proofs.Grammar.Spelling
import Formula.Proofs.Number.Writing

/-!
# Criteria made of a number's text

A comparison sign with the text of a number behind it is a criterion that compares with the number.
The text of a number is a decimal or a minus and a decimal, so no sign goes on into it; a decimal is
read as one token up to its end; and the minus, which is no part of the token, negates again what
was written without it.
-/

namespace Formula

open Evaluation Grammar Number Tokens

variable {text whole fraction : List Char} {x : Float}

/-! ### Decimals as formula texts -/

/-- A decimal is one token. -/
lemma Number.IsDecimal.lexes (h : IsDecimal text whole fraction) (position : ℕ) :
    Lexes position text [.number (ofDecimal whole fraction 0)] := by
  have behind : ∀ c ∈ ([] : List Char).head?, ¬ c.isDigit ∧ c ≠ '.' := nofun
  have ends (p : ℕ) : next p [] = .done p := rfl
  obtain ⟨digits, decimals, nonempty, ⟨rfl, rfl⟩ | rfl⟩ := h
  · have starts : startsNumeral (text ++ []) := startsNumeral_whole digits nonempty
    have read := numeral_whole digits behind
    rw [List.append_nil] at starts read
    exact .found (next_of_numeral starts read) (.done (ends _))
  · have starts : startsNumeral (whole ++ '.' :: (fraction ++ [])) :=
      startsNumeral_pointed digits decimals (.inl nonempty)
    have read := numeral_pointed digits decimals behind
    rw [List.append_nil] at starts read
    exact .found (next_of_numeral starts read) (.done (ends _))

/-- The constant that a number is, or its negation where a minus is written in front. -/
def signedNumber (negative : Bool) (x : Float) : Expr :=
  if negative then .unary .minus (.number x) else .number x

/-- A decimal, perhaps behind a minus, is a sentence. -/
lemma Number.IsDecimal.sentence (h : IsDecimal text whole fraction) (negative : Bool) :
    Expr.Sentence (if negative then '-' :: text else text)
      (signedNumber negative (ofDecimal whole fraction 0)) := by
  have power {us : List Token} (x : Float) : Derives .signed (.number x :: us) (.number x) us :=
    .unsigned (.base (.uncast (.called .number .done)))
  cases negative with
  | false => exact ⟨_, h.lexes 0, Expr.derives_signed (power _)⟩
  | true =>
    have minus : next 0 ('-' :: text) = .found .minus 0 1 text := by
      cases text <;> rfl
    exact ⟨_, .found minus (h.lexes 1), Expr.derives_signed (.sign (by decide) (power _))⟩

/-- A decimal, perhaps behind a minus, starts with no character of a comparison sign. -/
lemma Number.IsDecimal.foreign (h : IsDecimal text whole fraction) (negative : Bool) :
    ∀ c ∈ (if negative then '-' :: text else text).head?, c ∉ ['<', '>', '='] := by
  cases negative with
  | false =>
    obtain ⟨first, rest, eq⟩ := List.exists_cons_of_ne_nil h.nonempty
    have starts : text.head? = some first := by
      rcases h.spelled with ⟨rfl, -⟩ | rfl <;> rw [eq] <;> rfl
    have digit : first.isDigit := h.digits first (eq ▸ List.mem_cons_self)
    rw [if_neg Bool.false_ne_true, starts]
    rintro c ⟨⟩ mem
    simp only [List.mem_cons, List.not_mem_nil, or_false] at mem
    rcases mem with rfl | rfl | rfl <;> cases digit
  | true =>
    rintro c ⟨⟩
    decide

/-! ### Comparing with them -/

namespace Criterion

lemma answers_signedNumber (negative : Bool) (y : Float) (s : State) :
    (signedNumber negative y).Answers s (.ok (.number (if negative then -y else y))) s := by
  cases negative <;> exact ⟨2, rfl⟩

/-- Comparing with a number is what the operator makes of the candidate and the number. -/
lemma reaches_test_signedNumber_iff {op : BinaryOp} (compares : op.Compares) {negative : Bool}
    {y : Float} {candidate : Value} {s t : State} {outcome : Except Fault Bool}
    (usual : s.context.convert = Value.cast) :
    Reaches (fun n => (Criterion.compare op (signedNumber negative y)).test (Expr.evaluate n)
        candidate) s outcome t ↔
      op.apply candidate (.number (if negative then -y else y)) = outcome.map .boolean ∧ t = s :=
  reaches_test_compare_iff_of_answers compares usual (answers_signedNumber negative y s)

/-- **A comparison sign and a number's text mean the number.** Where text is parsed and values are
converted in the usual way, the sign of a comparison with the text of any finite number behind it
compiles, to a comparison by the same operator. Its test of a candidate, whatever that is, comes to
what the operator makes of the candidate and the number, a truth value or a fault, and changes
nothing. -/
theorem compile_sign_of_number (context : Context) (parses : context.parse = Expr.parse)
    (converts : context.convert = Value.cast) (op : BinaryOp) (compares : op.Compares) (x : Float)
    (finite : x.isFinite) (text : String)
    (written : context.convert (.number x) .string = .ok (.text text)) :
    ∃ right, compile context (.text (op.sign ++ text)) = .ok (.compare op right) ∧
      ∀ (candidate : Value) (s t : State) (outcome : Except Fault Bool),
        s.context.convert = Value.cast →
        (Reaches (fun n => (Criterion.compare op right).test (Expr.evaluate n) candidate)
            s outcome t ↔
          op.apply candidate (.number x) = outcome.map .boolean ∧ t = s) := by
  rw [converts] at written
  obtain rfl : Number.write .plain x = text := by
    simpa [Value.cast, Value.toText] using written
  obtain ⟨negative, _, _, parts⟩ := exists_parts finite
  obtain ⟨text, whole, fraction, decimal, written, value⟩ := exists_write_plain parts
  refine ⟨signedNumber negative (ofDecimal whole fraction 0), ?_, ?_⟩
  · have foreign := decimal.foreign negative
    have sentence := decimal.sentence negative
    generalize (if negative then '-' :: text else text) = cs at written foreign sentence
    have leads : op.Leads (op.sign ++ Number.write .plain x).toList cs := by
      rw [written, String.toList_append, String.toList_ofList]
      exact leads_sign compares foreign
    have parsed : Expr.parse (String.ofList cs) =
        .ok (signedNumber negative (ofDecimal whole fraction 0)) := by
      rw [Expr.parse_eq_ok_iff, String.toList_ofList]
      exact .inl sentence
    rw [compile_of_leads leads, parses, parsed]
    rfl
  · intro candidate s t outcome usual
    rw [value]
    exact reaches_test_signedNumber_iff compares usual

/-- `<=-2.5` accepts `-3`, and has no answer for a text. -/
theorem compile_sign_of_number_negative :
    let context : Context := .root {}
    context.parse = Expr.parse ∧ context.convert = Value.cast ∧ BinaryOp.le.Compares ∧
    (-2.5 : Float).isFinite ∧ context.convert (.number (-2.5)) .string = .ok (.text "-2.5") ∧
    ∃ right, compile context (.text "<=-2.5") = .ok (.compare .le right) ∧
      Reaches (fun n => (Criterion.compare .le right).test (Expr.evaluate n) (.number (-3)))
        ⟨context, []⟩ (.ok true) ⟨context, []⟩ ∧
      Reaches (fun n => (Criterion.compare .le right).test (Expr.evaluate n) (.text "a"))
        ⟨context, []⟩ (.error (.evaluation (.incomparable .text .number))) ⟨context, []⟩ := by
  intro context
  have compares : BinaryOp.le.Compares := by simp [BinaryOp.Compares]
  have finite : (-2.5 : Float).isFinite := rfl
  have text : Number.write .plain (-2.5) = "-2.5" := rfl
  have written : context.convert (.number (-2.5)) .string = .ok (.text "-2.5") :=
    congrArg (fun s => Except.ok (Value.text s)) text
  obtain ⟨right, compiled, tests⟩ :=
    compile_sign_of_number context rfl rfl .le compares (-2.5) finite "-2.5" written
  exact ⟨rfl, rfl, compares, finite, written, right, compiled, (tests _ _ _ _ rfl).2 ⟨rfl, rfl⟩,
    (tests _ _ _ _ rfl).2 ⟨rfl, rfl⟩⟩

end Criterion

end Formula
