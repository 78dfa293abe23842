import Formula.Proofs.Filter.Compiling
import Formula.Proofs.Filter.Selection
import Formula.Proofs.Grammar.Quoting

/-!
# Criteria made of a text between quotes

A criterion can ask for any text whatever: behind the sign `=` it is written between quotes, with
backslashes where they are needed. What is written so is one token, so it is all of the formula
behind the sign, and only the text itself is equal to it.
-/

namespace Formula

open Evaluation Grammar Tokens

variable {quote : Char}

/-! ### Formula texts -/

/-- A text between quotes is a sentence, and stands for the text. -/
lemma Expr.sentence_quoted (quotes : quote = '"' ∨ quote = '\'') (text : String) :
    Sentence (quoted quote text.toList) (.text text) := by
  have read := next_quoted quotes text.toList 0 []
  rw [List.append_nil, String.ofList_toList] at read
  exact ⟨[.text text], .found read (.done rfl),
    derives_signed (.unsigned (.base (.uncast (.called .text .done))))⟩

/-! ### Comparing with them -/

/-- Nothing but a text is equal to it. -/
lemma Value.equal_text_iff {v : Value} {text : String} : v.equal (.text text) ↔ v = .text text := by
  cases v <;> simp [Value.equal]

namespace Criterion

/-- Where text is parsed in the usual way, a sign and a text between quotes compare with the
text. -/
lemma compile_sign_quoted (quotes : quote = '"' ∨ quote = '\'') {context : Context}
    (parses : context.parse = Expr.parse) {op : BinaryOp} (compares : op.Compares)
    (text : String) :
    compile context (.text (op.sign ++ String.ofList (quoted quote text.toList))) =
      .ok (.compare op (.text text)) := by
  have foreign : ∀ c ∈ (quoted quote text.toList).head?, c ∉ ['<', '>', '='] := by
    rintro c ⟨⟩
    rcases quotes with rfl | rfl <;> decide
  have leads : op.Leads (op.sign ++ String.ofList (quoted quote text.toList)).toList
      (quoted quote text.toList) := by
    rw [String.toList_append, String.toList_ofList]
    exact leads_sign compares foreign
  have parsed : Expr.parse (String.ofList (quoted quote text.toList)) = .ok (.text text) := by
    rw [Expr.parse_eq_ok_iff, String.toList_ofList]
    exact .inl (Expr.sentence_quoted quotes text)
  rw [compile_of_leads leads, parses, parsed]
  rfl

/-- Where values are converted in the usual way, the comparison for equality with a text accepts the
text and nothing else. -/
lemma exists_accepted_eq_text (text : String) (candidate : Value) :
    ∃ accepted : Bool, (accepted ↔ candidate = .text text) ∧
      ∀ (s t : State) (outcome : Except Fault Bool), s.context.convert = Value.cast →
        (Reaches (fun n => (Criterion.compare .eq (.text text)).test (Expr.evaluate n) candidate)
            s outcome t ↔
          outcome = .ok accepted ∧ t = s) := by
  refine ⟨candidate.equal (.text text), Value.equal_text_iff, fun s t outcome usual => ?_⟩
  have compares : BinaryOp.eq.Compares := by simp [BinaryOp.Compares]
  have value : (Expr.text text).Answers s (.ok (.text text)) s := ⟨1, rfl⟩
  have applied : BinaryOp.eq.apply candidate (.text text) =
      .ok (.boolean (candidate.equal (.text text))) := rfl
  rw [reaches_test_compare_iff_of_answers compares usual value, applied]
  cases outcome with
  | ok b => simp [Except.map, eq_comm]
  | error fault => simp [Except.map]

/-- **Every text can be written between quotes.** For quotes of either kind, a text with a backslash
before each backslash and each such quote is read between the quotes as one token, the text itself,
which ends right behind the closing quote wherever the text stands and whatever follows; by itself
it is that one token and nothing else. So the sign `=` with it, where text is parsed in the usual
way, is a criterion that compiles, and where values are converted in the usual way the test of a
candidate comes to a verdict, changes nothing, and accepts the text and nothing else. -/
theorem compile_eq_quoted (quote : Char) (quotes : quote = '"' ∨ quote = '\'') (text : String) :
    (∀ (position : ℕ) (rest : List Char),
      next position (quoted quote text.toList ++ rest) =
        .found (.text text) position (position + width (quoted quote text.toList)) rest) ∧
    ofText (quoted quote text.toList) =
      .cons (.text text) 0 (width (quoted quote text.toList))
        (.done (width (quoted quote text.toList))) ∧
    ∀ context : Context, context.parse = Expr.parse →
      compile context (.text ("=" ++ String.ofList (quoted quote text.toList))) =
        .ok (.compare .eq (.text text)) ∧
      ∀ candidate : Value, ∃ accepted : Bool, (accepted ↔ candidate = .text text) ∧
        ∀ (s t : State) (outcome : Except Fault Bool), s.context.convert = Value.cast →
          (Reaches (fun n => (Criterion.compare .eq (.text text)).test (Expr.evaluate n) candidate)
              s outcome t ↔
            outcome = .ok accepted ∧ t = s) := by
  have compares : BinaryOp.eq.Compares := by simp [BinaryOp.Compares]
  refine ⟨?_, ?_, fun context parses => ⟨compile_sign_quoted quotes parses compares text,
    exists_accepted_eq_text text⟩⟩
  · intro position rest
    rw [next_quoted quotes, String.ofList_toList]
  · rw [ofText_quoted quotes, String.ofList_toList]

/-- Between single quotes `it's a \n` is written `'it\'s a \\n'`. The criterion does not take the
backslash and the letter for a line end. -/
theorem compile_eq_quoted_escaped :
    let context : Context := .root {}
    let text := "it's a \\n"
    quoted '\'' text.toList = "'it\\'s a \\\\n'".toList ∧
    ('\'' = '"' ∨ '\'' = '\'') ∧ context.parse = Expr.parse ∧ context.convert = Value.cast ∧
    next 3 ("'it\\'s a \\\\n'".toList ++ [')']) = .found (.text text) 3 16 [')'] ∧
    compile context (.text "='it\\'s a \\\\n'") = .ok (.compare .eq (.text text)) ∧
    Reaches (fun n => (Criterion.compare .eq (.text text)).test (Expr.evaluate n) (.text text))
      ⟨context, []⟩ (.ok true) ⟨context, []⟩ ∧
    Reaches (fun n => (Criterion.compare .eq (.text text)).test (Expr.evaluate n)
      (.text "it's a \n")) ⟨context, []⟩ (.ok false) ⟨context, []⟩ := by
  intro context text
  have written : quoted '\'' text.toList = "'it\\'s a \\\\n'".toList := by decide
  obtain ⟨token, -, criteria⟩ := compile_eq_quoted '\'' (.inr rfl) text
  obtain ⟨compiled, tests⟩ := criteria context rfl
  obtain ⟨accepted, same, itself⟩ := tests (.text text)
  obtain ⟨refused, differs, other⟩ := tests (.text "it's a \n")
  obtain rfl : accepted = true := same.2 rfl
  obtain rfl : refused = false := by
    rw [← Bool.not_eq_true, differs, Value.text.injEq]
    decide
  rw [written] at token compiled
  exact ⟨written, .inr rfl, rfl, rfl, token 3 [')'], compiled, (itself _ _ _ rfl).2 ⟨rfl, rfl⟩,
    (other _ _ _ rfl).2 ⟨rfl, rfl⟩⟩

end Criterion

end Formula
