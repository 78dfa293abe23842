import Formula.Proofs.Filter.Operand
import Formula.Proofs.Grammar.Parsing
import Formula.Proofs.Grammar.Words

/-!
# Criteria that are comparisons

Behind the sign of a comparison stands a formula text: a sentence of the grammar or, as wherever a
formula is given as text, a sentence behind a sign `=` of its own, with blanks before that. Neither
is taken for the other, since no sentence starts so. Where there is no second sign, a criterion
compiles just when what follows its sign is a sentence, and compares with what that stands for.
-/

namespace Formula

open Grammar Tokens

variable {cs formula : List Char} {c : Char} {e : Expr}

/-! ### Formula texts -/

namespace Expr

/-- That a text starts with the sign `=`, perhaps behind blanks, and what follows the sign. -/
def Marked (cs formula : List Char) : Prop :=
  ∃ blanks, cs = blanks ++ '=' :: formula ∧ ∀ c ∈ blanks, Text.isBlank c

lemma trimStart_of_marked (h : Marked cs formula) : Text.trimStart cs = '=' :: formula := by
  obtain ⟨blanks, rfl, blank⟩ := h
  rw [Text.trimStart, List.dropWhile_append_of_pos blank]
  rfl

/-- Behind a leading sign the expression starts. -/
lemma source_of_marked (h : Marked cs formula) : source cs = formula := by
  simp [source, trimStart_of_marked h]

lemma source_of_not_marked (h : ∀ formula, ¬ Marked cs formula) : source cs = cs := by
  rw [source]
  split
  · next rest trimmed =>
    refine absurd ⟨cs.takeWhile Text.isBlank, ?_, fun c mem => List.mem_takeWhile_imp mem⟩ (h rest)
    rw [← trimmed, Text.trimStart, List.takeWhile_append_dropWhile]
  · rfl

end Expr

/-! ### No sentence starts with a sign for equality -/

/-- That a character starts no operand: a blank or the sign `=`. -/
def Idles (c : Char) : Prop := Text.isBlank c ∨ c = '='

instance : DecidablePred Idles := fun _ => inferInstanceAs (Decidable (_ ∨ _))

/-- Digits and letters start operands. -/
lemma not_idles_of_toNat (h : 48 ≤ c.toNat ∧ c.toNat ≤ 57 ∨ 65 ≤ c.toNat ∧ c.toNat ≤ 122) :
    ¬ Idles c := by
  rintro (blank | rfl)
  · simp [Text.isBlank] at blank
    omega
  · revert h
    decide

/-- No operand starts with a token that is found where a character idles. -/
lemma entry_lt_of_idles {position stop : ℕ} {rest : List Char} {t : Token}
    (h : Found position (c :: cs) t stop rest) (idles : Idles c) :
    t.entry < (Form.level .or).entry := by
  generalize text : c :: cs = ds at h
  cases h with
  | numeral starts read =>
    subst text
    rcases eq_cons_of_startsNumeral starts with ⟨_, _, ⟨⟩, digit⟩ | ⟨_, _, ⟨⟩, _⟩
    · exact absurd idles (not_idles_of_toNat (.inl (Char.isDigit_iff_toNat.1 digit)))
    · exact absurd idles (by decide)
  | word letter =>
    cases text
    exact absurd idles (not_idles_of_toNat (.inr (toNat_of_isWordStart letter)))
  | literal quotes read =>
    cases text
    rcases quotes with rfl | rfl <;> exact absurd idles (by decide)
  | @symbol spelling rest t mem =>
    have all : ∀ s ∈ symbols, Idles (s.1.headD ' ') → s.2.entry < (Form.level .or).entry := by
      decide
    cases spelling with
    | nil => exact absurd rfl (ne_nil_of_mem_symbols mem)
    | cons d spelling =>
      obtain ⟨rfl, -⟩ := List.cons.inj text
      exact all _ mem idles

/-- What starts with a leading sign is no sentence by itself. -/
lemma Expr.Marked.not_sentence (h : Marked cs formula) : ¬ Sentence cs e := by
  rintro ⟨ts, lexes, derives⟩
  obtain ⟨blanks, rfl, blank⟩ := h
  have opens : ∃ c ds, (blanks ++ '=' :: formula).dropWhile isSpace = c :: ds ∧ Idles c := by
    cases later : blanks.dropWhile isSpace with
    | nil =>
      have spaces : ∀ c ∈ blanks, isSpace c := List.dropWhile_eq_nil_iff.1 later
      rw [List.dropWhile_append_of_pos spaces]
      exact ⟨'=', formula, rfl, .inr rfl⟩
    | cons c ds =>
      have mem : c ∈ blanks := (List.dropWhile_sublist _).subset (later ▸ List.mem_cons_self)
      rw [List.dropWhile_append, later]
      exact ⟨c, _, rfl, .inl (blank c mem)⟩
  obtain ⟨c, ds, text, idles⟩ := opens
  cases lexes with
  | done => exact absurd derives.length_lt (Nat.lt_irrefl 0)
  | found look more =>
    simp only [next, List.span_eq_takeWhile_dropWhile, text] at look
    exact derives.head?_ne (entry_lt_of_idles (found_of_tokenAt look).2 idles) rfl

/-- A formula text is a sentence, or a leading sign and a sentence. -/
lemma Expr.parse_eq_ok_iff {text : String} : parse text = .ok e ↔
    Sentence text.toList e ∨ ∃ formula, Marked text.toList formula ∧ Sentence formula e := by
  rw [parse, ofText_eq_ok_iff_sentence]
  by_cases marked : ∃ formula, Marked text.toList formula
  · obtain ⟨formula, marked⟩ := marked
    rw [source_of_marked marked]
    constructor
    · intro sentence
      exact .inr ⟨formula, marked, sentence⟩
    · rintro (sentence | ⟨formula', marked', sentence⟩)
      · exact absurd sentence marked.not_sentence
      · rwa [← source_of_marked marked, source_of_marked marked']
  · have unmarked := not_exists.1 marked
    rw [source_of_not_marked unmarked]
    simp [unmarked]

/-! ### Comparisons -/

namespace Criterion

/-- **A criterion compiles just when what follows its sign is a formula text.** Where text is parsed
in the usual way, a text whose longest comparison sign is that of `op` compiles if and only if what
follows the sign is a sentence of the grammar, or a leading sign `=` of its own and a sentence; and
then it compares by `op` with the expression that the sentence stands for. Without such a leading
sign it does to what follows just what the parser does, with the same tree or the same fault. -/
theorem compile_eq_ok_iff_sentence (context : Context) (usual : context.parse = Expr.parse)
    (text : String) (op : BinaryOp) (rest : List Char) (leads : op.Leads text.toList rest) :
    (∀ criterion, compile context (.text text) = .ok criterion ↔
      ∃ e, criterion = .compare op e ∧
        (Expr.Sentence rest e ∨
          ∃ formula, Expr.Marked rest formula ∧ Expr.Sentence formula e)) ∧
    ((∀ formula, ¬ Expr.Marked rest formula) →
      compile context (.text text) = (Expr.ofText rest).map (.compare op)) := by
  rw [compile_of_leads leads, usual]
  constructor
  · intro criterion
    have parsed (e : Expr) : Expr.parse (String.ofList rest) = .ok e ↔
        Expr.Sentence rest e ∨ ∃ formula, Expr.Marked rest formula ∧ Expr.Sentence formula e := by
      rw [Expr.parse_eq_ok_iff, String.toList_ofList]
    simp only [← parsed]
    cases Expr.parse (String.ofList rest) with
    | ok e => simp [Except.map, eq_comm]
    | error fault => simp [Except.map]
  · intro unmarked
    rw [Expr.parse, String.toList_ofList, Expr.source_of_not_marked unmarked]

/-- `<> =x` has a leading sign of its own and compares with `x`; `<=x` has none. -/
theorem compile_eq_ok_iff_sentence_marked :
    let context : Context := .root {}
    context.parse = Expr.parse ∧
    BinaryOp.ne.Leads "<> =x".toList [' ', '=', 'x'] ∧
    compile context (.text "<> =x") = .ok (.compare .ne (.variable "x")) ∧
    BinaryOp.le.Leads "<=x".toList ['x'] ∧ (∀ formula, ¬ Expr.Marked ['x'] formula) ∧
    compile context (.text "<=x") = (Expr.ofText ['x']).map (.compare .le) := by
  intro context
  have differs : BinaryOp.ne.Leads "<> =x".toList [' ', '=', 'x'] := leads_of_splitSign? rfl
  have below : BinaryOp.le.Leads "<=x".toList ['x'] := leads_of_splitSign? rfl
  have marked : Expr.Marked [' ', '=', 'x'] ['x'] :=
    ⟨[' '], rfl, List.forall_mem_singleton.2 rfl⟩
  have unmarked : ∀ formula, ¬ Expr.Marked ['x'] formula := by
    intro formula marked
    cases Expr.trimStart_of_marked marked
  have sentence : Expr.Sentence ['x'] (.variable "x") := Expr.ofText_eq_ok_iff_sentence.1 rfl
  have compiled := (compile_eq_ok_iff_sentence context rfl _ _ _ differs).1
    (.compare .ne (.variable "x"))
  exact ⟨rfl, differs, compiled.2 ⟨_, rfl, .inr ⟨_, marked, sentence⟩⟩, below, unmarked,
    (compile_eq_ok_iff_sentence context rfl _ _ _ below).2 unmarked⟩

/-- `> =5` compiles, to the comparison `> 5`, although ` =5` is no sentence. -/
theorem compile_of_not_sentence :
    let context : Context := .root {}
    context.parse = Expr.parse ∧ BinaryOp.gt.Leads "> =5".toList [' ', '=', '5'] ∧
    compile context (.text "> =5") = .ok (.compare .gt (.number 5)) ∧
    Expr.ofText [' ', '=', '5'] = .error (.grammar (.unexpected (some .equal)) 1) ∧
    ¬ ((∃ criterion, compile context (.text "> =5") = .ok criterion) ↔
      ∃ e, Expr.ofText [' ', '=', '5'] = .ok e) := by
  intro context
  have compiled : compile context (.text "> =5") = .ok (.compare .gt (.number 5)) := rfl
  have refused : Expr.ofText [' ', '=', '5'] =
      .error (.grammar (.unexpected (some .equal)) 1) := rfl
  refine ⟨rfl, leads_of_splitSign? rfl, compiled, refused, ?_⟩
  intro same
  obtain ⟨e, accepted⟩ := same.1 ⟨_, compiled⟩
  rw [refused] at accepted
  cases accepted

end Criterion

end Formula
