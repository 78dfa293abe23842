import Formula.Proofs.Evaluation.Depth
import Formula.Proofs.Filter.Operand
import Formula.Proofs.Memo.Growth

/-!
# What filtering selects

An operand judges a candidate by equality, by the value of a comparison or by a glob, as it says.
Filtering asks it about one candidate after the other, as many as have a value paired with them,
until a judgement fails; the values whose candidates were accepted go to the reducer as one array.
-/

namespace Formula

open Evaluation Filter BinaryOp

/-- An expression that answers leaves a context that has only grown. -/
lemma Expr.Answers.grows {e : Expr} {s t : State} {outcome : Except Fault Value}
    (h : e.Answers s outcome t) : s.context.Grows t.context := by
  obtain ⟨depth, run⟩ := h
  have course := (Expr.grows_evaluate depth e s trivial).1
  rwa [run] at course

/-- That a function which is given values comes to an outcome and leaves a state behind. -/
def Function.Returns (f : Function) (values : List Value) (s : State)
    (outcome : Except Fault Value) (t : State) : Prop :=
  Reaches (fun n => f.apply (Expr.evaluate n) (values.map .literal)) s outcome t

namespace Criterion

/-! ### Judging candidates -/

/-- What an operand says of a candidate in a context: no text asks for equality, a text with a
leading sign for a comparison to hold, any other text for its glob to fit. Only the comparison
evaluates something and may fail. -/
inductive Judges (c : Context) : (operand candidate : Value) → State → Except Fault Bool →
    State → Prop
  | equality {operand candidate : Value} {s : State} (kind : operand.kind ≠ .text) :
      Judges c operand candidate s (.ok (candidate.equal operand)) s
  | comparison {text : String} {op : BinaryOp} {rest : List Char} {right : Expr}
      {candidate : Value} {s t : State} {outcome : Except Fault Bool}
      (leads : op.Leads text.toList rest) (parsed : c.parse (String.ofList rest) = .ok right)
      (answers : (Expr.binary (.literal candidate) op right).Answers s (outcome.map .boolean) t) :
      Judges c (.text text) candidate s outcome t
  | glob {text : String} {candidate : Value} {s : State} (none : NoneLeads text.toList) :
      Judges c (.text text) candidate s
        (.ok ((Glob.ofText text c.policy).accepts (candidate.textForm c.separators.decimal))) s

/-- What an operand says of candidates, one after the other, when no judgement fails. -/
inductive JudgesAll (c : Context) (operand : Value) : (candidates : List Value) →
    (verdicts : List Bool) → State → State → Prop
  | nil {s : State} : JudgesAll c operand [] [] s s
  | cons {candidate : Value} {candidates : List Value} {verdict : Bool} {verdicts : List Bool}
      {s m t : State} (first : Judges c operand candidate s (.ok verdict) m)
      (others : JudgesAll c operand candidates verdicts m t) :
      JudgesAll c operand (candidate :: candidates) (verdict :: verdicts) s t

/-- The values at whose places the verdict is true, in order. -/
def kept (values : List Value) (verdicts : List Bool) : List Value :=
  ((values.zip verdicts).filter (·.2)).map (·.1)

/-- That an operand is a comparison with an expression that cannot be read. -/
def Unreadable (c : Context) (operand : Value) (fault : Fault) : Prop :=
  ∃ (text : String) (op : BinaryOp) (rest : List Char), operand = .text text ∧
    op.Leads text.toList rest ∧ c.parse (String.ofList rest) = .error fault

/-- That one of the candidates is the first whose judgement fails. -/
def FirstFails (c : Context) (operand : Value) (candidates : List Value) (s : State)
    (fault : Fault) (t : State) : Prop :=
  ∃ before candidate after verdicts m, candidates = before ++ candidate :: after ∧
    JudgesAll c operand before verdicts s m ∧ Judges c operand candidate m (.error fault) t

/-! ### Reading operands -/

variable {c : Context} {operand : Value}

lemma compile_eq_error_iff {fault : Fault} :
    compile c operand = .error fault ↔ Unreadable c operand fault := by
  constructor
  · intro failed
    rcases operand_cases operand with kind | ⟨text, op, rest, rfl, leads⟩ | ⟨text, rfl, none⟩
    · rw [compile_of_kind kind] at failed
      cases failed
    · rw [compile_of_leads leads] at failed
      refine ⟨text, op, rest, rfl, leads, ?_⟩
      cases parsed : c.parse (String.ofList rest) with
      | ok e => simp [parsed, Except.map] at failed
      | error fault =>
        rw [parsed] at failed
        cases failed
        rfl
    · rw [compile_of_noneLeads none] at failed
      cases failed
  · rintro ⟨text, op, rest, rfl, leads, failed⟩
    rw [compile_of_leads leads, failed]
    rfl

/-! ### One judgement -/

section

variable {excused : Failure → Prop} {evaluate other : Evaluator}

lemma agrees_test (h : evaluate.Agrees excused other) (criterion : Criterion) (candidate : Value) :
    Evaluation.Agrees excused (criterion.test evaluate candidate)
      (criterion.test other candidate) := by
  refine agrees_iff_follows.2 ?_
  change (Simulation.equality excused).logic.Holds ()
    (fun i => criterion.test (i.elim (fun _ => evaluate) fun _ => other) candidate) fun _ => True
  refine (Simulation.equality excused).logic.test candidate ?_ ?_
  · cases criterion <;> trivial
  · exact fun e _ => agrees_iff_follows.1 (h e)

lemma agrees_select (h : evaluate.Agrees excused other) (criterion : Criterion)
    (pairs : List (Value × Value)) :
    Evaluation.Agrees excused (criterion.select evaluate pairs)
      (criterion.select other pairs) := by
  induction pairs with
  | nil => exact .rfl
  | cons pair rest ih =>
    refine (agrees_test h criterion pair.1).bind fun met => ?_
    cases met with
    | true => exact ih.bind fun _ => .rfl
    | false => exact ih

end

variable {criterion : Criterion} {s t : State}

/-- A truth value is the decision where values are converted in the usual way. -/
lemma runFrom_decision (usual : s.context.convert = Value.cast) (b : Bool) :
    (decision (.boolean b)).runFrom s = (.ok b, s) := by
  rw [decision, runFrom_bind_of_ok (runFrom_context s), usual]
  rfl

lemma runFrom_test_equals (evaluate : Evaluator) (v candidate : Value)
    (usual : s.context.convert = Value.cast) :
    ((Criterion.equals v).test evaluate candidate).runFrom s = (.ok (candidate.equal v), s) :=
  runFrom_decision usual _

lemma runFrom_test_glob (evaluate : Evaluator) (pattern : Glob) (candidate : Value)
    (usual : s.context.convert = Value.cast) :
    ((Criterion.glob pattern).test evaluate candidate).runFrom s =
      (.ok (pattern.accepts (candidate.textForm s.context.separators.decimal)), s) := by
  rw [test, runFrom_bind_of_ok (runFrom_context s), candidateText_eq_textForm usual]
  rfl

/-- A candidate compared with the value of an expression, as an expression of its own. -/
lemma answers_binary_literal_iff {candidate : Value} {op : BinaryOp} {right : Expr}
    {outcome : Except Fault Value} :
    (Expr.binary (.literal candidate) op right).Answers s outcome t ↔
      Reaches (fun n => Expr.evaluate n right >>= fun v => ofExcept (op.apply candidate v))
        s outcome t := by
  -- A literal needs one step, which is also the least that the other side needs.
  rw [Expr.answers_iff_step]
  constructor <;> rintro ⟨depth, run⟩ <;> cases depth
  case mp.zero | mpr.zero => cases outcome <;> cases run
  case mp.succ depth | mpr.succ depth => exact ⟨depth + 1, run⟩

/-- The outcome of a comparison is a truth value, reached in a context like the one before. -/
lemma boolean_of_reaches {candidate v : Value} {op : BinaryOp} {right : Expr}
    (compares : op.Compares)
    (reaches : Reaches (fun n => Expr.evaluate n right >>= fun v => ofExcept (op.apply candidate v))
      s (.ok v) t) :
    (∃ b, v = .boolean b) ∧ t.context.forget = s.context.forget := by
  rcases (reaches_bind_iff (fun depth => Expr.deepens_evaluate depth right)
    fun _ _ => .rfl).1 reaches with ⟨_, ⟨⟩, _⟩ | ⟨w, m, evaluated, compared⟩
  rw [reaches_iff_of_runs fun _ => runFrom_ofExcept _ m, Prod.mk.injEq] at compared
  obtain ⟨applied, rfl⟩ := compared
  exact ⟨compares.eq_boolean (eq_ok_of_mapError applied), (Expr.Answers.grows evaluated).alike⟩

/-- The test of a comparison decides as its expression answers. -/
lemma reaches_test_compare_iff {op : BinaryOp} {right : Expr} {candidate : Value}
    {outcome : Except Fault Bool} (compares : op.Compares)
    (usual : s.context.convert = Value.cast) :
    Reaches (fun n => (Criterion.compare op right).test (Expr.evaluate n) candidate) s outcome t ↔
      (Expr.binary (.literal candidate) op right).Answers s (outcome.map .boolean) t := by
  have deepens : IsDeepening fun n =>
      Expr.evaluate n right >>= fun v => ofExcept (op.apply candidate v) :=
    fun depth => (Expr.deepens_evaluate depth right).bind fun _ => .rfl
  have test_eq (n : ℕ) : (Criterion.compare op right).test (Expr.evaluate n) candidate =
      (Expr.evaluate n right >>= fun v => ofExcept (op.apply candidate v)) >>= decision := by
    simp only [test, bind_assoc]
  have decides {v : Value} {m : State} (reaches : Reaches (fun n => Expr.evaluate n right >>=
      fun v => ofExcept (op.apply candidate v)) s (.ok v) m) :
      ∃ b, v = .boolean b ∧ (decision v).runFrom m = (.ok b, m) := by
    obtain ⟨⟨b, rfl⟩, alike⟩ := boolean_of_reaches compares reaches
    exact ⟨b, rfl, runFrom_decision ((Context.convert_eq_of_forget alike).trans usual) b⟩
  rw [answers_binary_literal_iff]
  simp only [test_eq]
  rw [reaches_bind_iff deepens fun _ _ => .rfl]
  constructor
  · rintro (⟨fault, rfl, failed⟩ | ⟨v, m, reaches, decided⟩)
    · exact failed
    · obtain ⟨b, rfl, run⟩ := decides reaches
      rw [reaches_iff_of_runs fun _ => run, Prod.mk.injEq] at decided
      obtain ⟨same, rfl⟩ := decided
      rw [eq_ok_of_mapError same.symm]
      exact reaches
  · intro reaches
    cases outcome with
    | error fault => exact .inl ⟨fault, rfl, reaches⟩
    | ok b =>
      obtain ⟨_, ⟨⟩, run⟩ := decides reaches
      exact .inr ⟨.boolean b, t, reaches, (reaches_iff_of_runs fun _ => run).2 rfl⟩

/-- Comparing with what has a value and changes nothing is what the operator makes of the candidate
and the value. -/
lemma reaches_test_compare_iff_of_answers {op : BinaryOp} {right : Expr} {candidate v : Value}
    {outcome : Except Fault Bool} (compares : op.Compares)
    (usual : s.context.convert = Value.cast) (value : right.Answers s (.ok v) s) :
    Reaches (fun n => (Criterion.compare op right).test (Expr.evaluate n) candidate) s outcome t ↔
      op.apply candidate v = outcome.map .boolean ∧ t = s := by
  rw [reaches_test_compare_iff compares usual, answers_binary_literal_iff,
    reaches_bind_iff (fun depth => Expr.deepens_evaluate depth _) fun _ _ => .rfl]
  constructor
  · rintro (⟨fault, -, failed⟩ | ⟨w, m, evaluated, compared⟩)
    · cases (value.unique failed).1
    · obtain ⟨eq, rfl⟩ := value.unique evaluated
      cases eq
      rw [reaches_iff_of_runs fun _ => runFrom_ofExcept _ s, Prod.mk.injEq] at compared
      exact ⟨mapError_fault_injective compared.1, compared.2.symm⟩
  · rintro ⟨applied, rfl⟩
    refine .inr ⟨_, t, value, ?_⟩
    rw [reaches_iff_of_runs fun _ => runFrom_ofExcept _ t, applied]

/-- A criterion tests candidates as the operand that it was made of judges them. -/
lemma reaches_test_iff {candidate : Value} {outcome : Except Fault Bool}
    (compiled : compile c operand = .ok criterion) (usual : c.convert = Value.cast)
    (alike : s.context.forget = c.forget) :
    Reaches (fun n => criterion.test (Expr.evaluate n) candidate) s outcome t ↔
      Judges c operand candidate s outcome t := by
  have usual' : s.context.convert = Value.cast :=
    (Context.convert_eq_of_forget alike).trans usual
  rcases operand_cases operand with kind | ⟨text, op, rest, rfl, leads⟩ | ⟨text, rfl, none⟩
  case inl =>
    rw [compile_of_kind kind] at compiled
    cases compiled
    rw [reaches_iff_of_runs fun _ => runFrom_test_equals _ operand candidate usual']
    constructor
    · intro run
      obtain ⟨same, rfl⟩ := Prod.mk.inj run
      rw [eq_ok_of_mapError same.symm]
      exact .equality kind
    · rintro (_ | ⟨leads, _, _⟩ | none)
      · rfl
      · exact absurd rfl kind
      · exact absurd rfl kind
  case inr.inl =>
    rw [compile_of_leads leads] at compiled
    cases parsed : c.parse (String.ofList rest) with
    | error fault => simp [parsed, Except.map] at compiled
    | ok right =>
      rw [parsed] at compiled
      cases compiled
      rw [reaches_test_compare_iff leads.compares usual']
      constructor
      · exact .comparison leads parsed
      · rintro (kind | ⟨leads', parsed', answers⟩ | none)
        · exact absurd rfl kind
        · obtain ⟨rfl, rfl⟩ := leads.unique leads'
          rw [parsed] at parsed'
          cases parsed'
          exact answers
        · exact absurd ⟨rest, leads.starts.symm⟩ (none op leads.compares)
  case inr.inr =>
    rw [compile_of_noneLeads none] at compiled
    cases compiled
    rw [reaches_iff_of_runs fun _ => runFrom_test_glob _ _ candidate usual',
      Context.separators_eq_of_forget alike]
    constructor
    · intro run
      obtain ⟨same, rfl⟩ := Prod.mk.inj run
      rw [eq_ok_of_mapError same.symm]
      exact .glob none
    · rintro (kind | ⟨leads, _, _⟩ | _)
      · exact absurd rfl kind
      · exact absurd ⟨_, leads.starts.symm⟩ (none _ leads.compares)
      · rfl

/-- A judgement leads to a context like the one before. -/
lemma Judges.alike {candidate : Value} {outcome : Except Fault Bool}
    (h : Judges c operand candidate s outcome t) : t.context.forget = s.context.forget := by
  cases h with
  | equality => rfl
  | glob => rfl
  | comparison _ _ answers => exact answers.grows.alike

/-! ### All judgements -/

@[simp] lemma kept_nil (values : List Value) : kept values [] = [] := by
  simp [kept]

@[simp] lemma kept_cons (value : Value) (values : List Value) (verdict : Bool)
    (verdicts : List Bool) : kept (value :: values) (verdict :: verdicts) =
      if verdict then value :: kept values verdicts else kept values verdicts := by
  cases verdict <;> simp [kept]

lemma judgesAll_nil_iff {verdicts : List Bool} :
    JudgesAll c operand [] verdicts s t ↔ verdicts = [] ∧ t = s := by
  constructor
  · rintro ⟨⟩
    exact ⟨rfl, rfl⟩
  · rintro ⟨rfl, rfl⟩
    exact .nil

lemma judgesAll_cons_iff {candidate : Value} {candidates : List Value} {verdicts : List Bool} :
    JudgesAll c operand (candidate :: candidates) verdicts s t ↔
      ∃ verdict others m, verdicts = verdict :: others ∧
        Judges c operand candidate s (.ok verdict) m ∧
        JudgesAll c operand candidates others m t := by
  constructor
  · rintro (_ | ⟨first, others⟩)
    exact ⟨_, _, _, rfl, first, others⟩
  · rintro ⟨verdict, others, m, rfl, first, rest⟩
    exact .cons first rest

lemma not_firstFails_nil {fault : Fault} : ¬ FirstFails c operand [] s fault t := by
  rintro ⟨before, candidate, after, _, _, split, _⟩
  cases before <;> cases split

lemma firstFails_cons_iff {candidate : Value} {candidates : List Value} {fault : Fault} :
    FirstFails c operand (candidate :: candidates) s fault t ↔
      Judges c operand candidate s (.error fault) t ∨
      ∃ verdict m, Judges c operand candidate s (.ok verdict) m ∧
        FirstFails c operand candidates m fault t := by
  constructor
  · rintro ⟨before, failing, after, verdicts, m, split, passed, failed⟩
    cases before with
    | nil =>
      obtain ⟨rfl, rfl⟩ := List.cons.inj split
      obtain ⟨-, rfl⟩ := judgesAll_nil_iff.1 passed
      exact .inl failed
    | cons first before =>
      obtain ⟨rfl, rfl⟩ := List.cons.inj split
      obtain ⟨verdict, others, m', -, judged, passed⟩ := judgesAll_cons_iff.1 passed
      exact .inr ⟨verdict, m', judged, before, failing, after, others, m, rfl, passed, failed⟩
  · rintro (failed | ⟨verdict, m, judged, before, failing, after, verdicts, m', rfl, passed,
      failed⟩)
    · exact ⟨[], candidate, candidates, [], s, rfl, .nil, failed⟩
    · exact ⟨candidate :: before, failing, after, verdict :: verdicts, m', rfl,
        .cons judged passed, failed⟩

/-! ### Selecting -/

/-- One candidate after the other: the verdict on the first one, then the rest. -/
lemma select_cons (evaluate : Evaluator) (candidate value : Value) (rest : List (Value × Value)) :
    criterion.select evaluate ((candidate, value) :: rest) =
      criterion.test evaluate candidate >>= fun verdict =>
        criterion.select evaluate rest >>= fun values =>
          pure (if verdict then value :: values else values) := by
  rw [select]
  refine bind_congr fun verdict => ?_
  cases verdict with
  | true => rfl
  | false => simp

lemma deepening_test (candidate : Value) :
    IsDeepening fun n => criterion.test (Expr.evaluate n) candidate :=
  fun depth => agrees_test (Expr.deepens_evaluate depth) criterion candidate

lemma deepening_select (pairs : List (Value × Value)) :
    IsDeepening fun n => criterion.select (Expr.evaluate n) pairs :=
  fun depth => agrees_select (Expr.deepens_evaluate depth) criterion pairs

/-- Selecting fails with the first judgement that does, or keeps what was accepted. -/
lemma reaches_select_iff {pairs : List (Value × Value)} {outcome : Except Fault (List Value)}
    (compiled : compile c operand = .ok criterion) (usual : c.convert = Value.cast)
    (alike : s.context.forget = c.forget) :
    Reaches (fun n => criterion.select (Expr.evaluate n) pairs) s outcome t ↔
      (∃ fault, FirstFails c operand (pairs.map (·.1)) s fault t ∧ outcome = .error fault) ∨
      ∃ verdicts, JudgesAll c operand (pairs.map (·.1)) verdicts s t ∧
        outcome = .ok (kept (pairs.map (·.2)) verdicts) := by
  induction pairs generalizing s outcome with
  | nil =>
    simp only [select, List.map_nil, judgesAll_nil_iff, not_firstFails_nil]
    rw [reaches_iff_of_runs fun _ => runFrom_pure _ s]
    constructor
    · intro run
      obtain ⟨same, rfl⟩ := Prod.mk.inj run
      exact .inr ⟨[], ⟨rfl, rfl⟩, eq_ok_of_mapError same.symm⟩
    · rintro (⟨_, ⟨⟩, _⟩ | ⟨_, ⟨rfl, rfl⟩, rfl⟩)
      rfl
  | cons pair rest ih =>
    obtain ⟨candidate, value⟩ := pair
    simp only [select_cons, List.map_cons, firstFails_cons_iff, judgesAll_cons_iff]
    rw [reaches_bind_iff (deepening_test candidate)
      fun verdict depth => (deepening_select rest depth).bind fun _ => .rfl]
    simp only [reaches_map_iff, reaches_test_iff compiled usual alike]
    constructor
    · rintro (⟨fault, rfl, failed⟩ | ⟨verdict, m, judged, result, selected, rfl⟩)
      · exact .inl ⟨fault, .inl failed, rfl⟩
      rcases (ih (judged.alike.trans alike)).1 selected with
        ⟨fault, failed, rfl⟩ | ⟨verdicts, passed, rfl⟩
      · exact .inl ⟨fault, .inr ⟨verdict, m, judged, failed⟩, rfl⟩
      · refine .inr ⟨verdict :: verdicts, ⟨verdict, verdicts, m, rfl, judged, passed⟩, ?_⟩
        rw [kept_cons]
        rfl
    · rintro (⟨fault, failed | ⟨verdict, m, judged, failed⟩, rfl⟩ |
        ⟨_, ⟨verdict, verdicts, m, rfl, judged, passed⟩, rfl⟩)
      · exact .inl ⟨fault, rfl, failed⟩
      · have selected := (ih (judged.alike.trans alike)).2 (.inl ⟨fault, failed, rfl⟩)
        exact .inr ⟨verdict, m, judged, .error fault, selected, rfl⟩
      · have selected := (ih (judged.alike.trans alike)).2 (.inr ⟨verdicts, passed, rfl⟩)
        refine .inr ⟨verdict, m, judged, _, selected, ?_⟩
        rw [kept_cons]
        rfl

/-! ### Filtering -/

/-- The candidates that have a value paired with them. -/
def paired (candidates : List Value) (values? : Option (List Value)) : List Value :=
  candidates.take (values?.getD candidates).length

/-- Pairing cuts the longer list. -/
lemma map_fst_zip_eq_take (xs ys : List Value) :
    (xs.zip ys).map (·.1) = xs.take ys.length := by
  induction xs generalizing ys with
  | nil => simp
  | cons x xs ih => cases ys <;> simp [ih]

lemma JudgesAll.length_eq {candidates : List Value} {verdicts : List Bool}
    (h : JudgesAll c operand candidates verdicts s t) : verdicts.length = candidates.length := by
  induction h with
  | nil => rfl
  | cons _ _ ih => simp [ih]

/-- Values without a verdict are not kept. -/
lemma kept_map_snd_zip (xs ys : List Value) (verdicts : List Bool)
    (short : verdicts.length ≤ xs.length) :
    kept ((xs.zip ys).map (·.2)) verdicts = kept ys verdicts := by
  induction xs generalizing ys verdicts with
  | nil =>
    rw [List.length_eq_zero_iff.1 (Nat.le_zero.1 short)]
    simp
  | cons x xs ih =>
    cases ys with
    | nil => simp
    | cons y ys =>
      cases verdicts with
      | nil => simp
      | cons verdict verdicts => simp [ih ys verdicts (Nat.le_of_succ_le_succ short)]

section

variable {candidates : List Value} {values? : Option (List Value)}

lemma runFrom_reduceMatching_of_error {evaluate : Evaluator}
    {reduce : List Value → Evaluation Value} {fault : Fault}
    (compiled : compile s.context operand = .error fault) :
    (reduceMatching evaluate reduce candidates values? operand).runFrom s =
      (.error (.fault fault), s) := by
  rw [reduceMatching, runFrom_bind_of_ok (runFrom_context s), compiled]
  rfl

lemma runFrom_reduceMatching_of_ok {evaluate : Evaluator} {reduce : List Value → Evaluation Value}
    (compiled : compile s.context operand = .ok criterion) :
    (reduceMatching evaluate reduce candidates values? operand).runFrom s =
      (criterion.select evaluate (candidates.zip (values?.getD candidates)) >>= reduce).runFrom
        s := by
  rw [reduceMatching, runFrom_bind_of_ok (runFrom_context s), compiled]
  rfl

/-- With an operand that can be read, filtering comes to the first failure or to what is made of the
values that are kept. -/
lemma reaches_reduceMatching_of_ok {reduce : ℕ → List Value → Evaluation Value}
    {outcome : Except Fault Value} (reduces : ∀ kept, IsDeepening fun n => reduce n kept)
    (usual : s.context.convert = Value.cast)
    (compiled : compile s.context operand = .ok criterion) :
    Reaches (fun n => reduceMatching (Expr.evaluate n) (reduce n) candidates values? operand)
        s outcome t ↔
      (∃ fault, FirstFails s.context operand (paired candidates values?) s fault t ∧
        outcome = .error fault) ∨
      ∃ verdicts m, JudgesAll s.context operand (paired candidates values?) verdicts s m ∧
        Reaches (fun n => reduce n (kept (values?.getD candidates) verdicts)) m outcome t := by
  set pairs := candidates.zip (values?.getD candidates)
  have firsts : pairs.map (·.1) = paired candidates values? := map_fst_zip_eq_take _ _
  have seconds {verdicts : List Bool} {m : State}
      (passed : JudgesAll s.context operand (paired candidates values?) verdicts s m) :
      kept (pairs.map (·.2)) verdicts = kept (values?.getD candidates) verdicts := by
    refine kept_map_snd_zip _ _ _ ?_
    rw [passed.length_eq]
    exact List.length_take_le' _ _
  have selects : Reaches (fun n => reduceMatching (Expr.evaluate n) (reduce n) candidates values?
      operand) s outcome t ↔
      Reaches (fun n => criterion.select (Expr.evaluate n) pairs >>= reduce n) s outcome t := by
    simp only [Reaches, runFrom_reduceMatching_of_ok compiled, pairs]
  rw [selects, reaches_bind_iff (deepening_select pairs) reduces]
  simp only [reaches_select_iff compiled usual rfl, firsts]
  constructor
  · rintro (⟨_, rfl, ⟨fault, failed, ⟨⟩⟩ | ⟨_, _, ⟨⟩⟩⟩ |
      ⟨_, m, ⟨_, _, ⟨⟩⟩ | ⟨verdicts, passed, ⟨⟩⟩, reduced⟩)
    · exact .inl ⟨_, failed, rfl⟩
    · rw [seconds passed] at reduced
      exact .inr ⟨verdicts, m, passed, reduced⟩
  · rintro (⟨fault, failed, rfl⟩ | ⟨verdicts, m, passed, reduced⟩)
    · exact .inl ⟨fault, rfl, .inl ⟨fault, failed, rfl⟩⟩
    · refine .inr ⟨_, m, .inr ⟨verdicts, passed, rfl⟩, ?_⟩
      rw [seconds passed]
      exact reduced

end

/-- **Filtering means what the operand says.** Where values are converted in the usual way, the
reduction of what an operand accepts comes to an outcome in exactly one of three ways: the operand
is a comparison with an expression that cannot be read, and nothing was evaluated; or a candidate is
the first one whose judgement fails, and none after it was judged; or all candidates that have a
value paired with them were judged, and the outcome is what the function returns for one array of
the values whose candidates were accepted. -/
theorem reduceMatching_reaches_iff {s t : State} (usual : s.context.convert = Value.cast)
    (f : Function) (candidates : List Value) (values? : Option (List Value)) (operand : Value)
    (outcome : Except Fault Value) :
    Reaches (fun n => reduceMatching (Expr.evaluate n)
        (fun kept => f.apply (Expr.evaluate n) [.literal (.array kept)]) candidates values? operand)
        s outcome t ↔
      (∃ fault, Unreadable s.context operand fault ∧ outcome = .error fault ∧ t = s) ∨
      (∀ fault, ¬ Unreadable s.context operand fault) ∧
        ((∃ fault, FirstFails s.context operand (paired candidates values?) s fault t ∧
            outcome = .error fault) ∨
          ∃ verdicts m, JudgesAll s.context operand (paired candidates values?) verdicts s m ∧
            f.Returns [.array (kept (values?.getD candidates) verdicts)] m outcome t) := by
  have reduces (kept : List Value) : IsDeepening fun n =>
      f.apply (Expr.evaluate n) [.literal (.array kept)] :=
    fun depth => (Expr.deepens_evaluate depth).apply f _
  cases compiled : compile s.context operand with
  | error fault =>
    have unreadable : Unreadable s.context operand fault := compile_eq_error_iff.1 compiled
    rw [reaches_iff_of_runs fun _ => runFrom_reduceMatching_of_error compiled]
    constructor
    · intro run
      obtain ⟨failed, rfl⟩ := Prod.mk.inj run
      exact .inl ⟨fault, unreadable, mapError_fault_injective failed.symm, rfl⟩
    · rintro (⟨fault', unreadable', rfl, rfl⟩ | ⟨readable, _⟩)
      · rw [compile_eq_error_iff.2 unreadable'] at compiled
        cases compiled
        rfl
      · exact absurd unreadable (readable fault)
  | ok criterion =>
    have readable (fault : Fault) : ¬ Unreadable s.context operand fault := by
      simp [← compile_eq_error_iff, compiled]
    rw [reaches_reduceMatching_of_ok reduces usual compiled]
    constructor
    · exact fun reaches => .inr ⟨readable, reaches⟩
    · rintro (⟨fault, unreadable, _⟩ | ⟨-, reaches⟩)
      · exact absurd unreadable (readable fault)
      · exact reaches

/-- Of the values paired with three candidates the first one is counted: the second candidate is not
equal to the operand, and the third has no value. -/
theorem reduceMatching_reaches_counted :
    Reaches (fun n => reduceMatching (Expr.evaluate n)
        (fun kept => (Function.reducer .counta).apply (Expr.evaluate n) [.literal (.array kept)])
        [.null, .text "x", .null] (some [.text "a", .text "b"]) .null)
      ⟨.root {}, []⟩ (Aggregate.present [.array [.text "a"]]) ⟨.root {}, []⟩ := by
  have readable : ∀ fault, ¬ Unreadable (.root {}) .null fault := by
    rintro fault ⟨_, _, _, ⟨⟩, _⟩
  have judged : JudgesAll (.root {}) .null [.null, .text "x"] [true, false] ⟨.root {}, []⟩
      ⟨.root {}, []⟩ :=
    .cons (.equality (by decide)) (.cons (.equality (by decide)) .nil)
  exact (reduceMatching_reaches_iff rfl (.reducer .counta) [.null, .text "x", .null]
    (some [.text "a", .text "b"]) .null _).2 (.inr ⟨readable, .inr ⟨_, _, judged, 1, rfl⟩⟩)

/-- The filtering functions that are there without being added reduce with an aggregate. -/
theorem applyRange_eq_reduceMatching (depth : ℕ) (r : RangeReducer) (values : List Value) :
    Function.applyRange (Expr.evaluate (depth + 1)) r values =
      ofExcept (Function.rangeShape r values.length) >>= fun _ =>
        reduceMatching (Expr.evaluate (depth + 1))
          (fun kept => (Function.reducer r.reducer).apply (Expr.evaluate (depth + 1))
            [.literal (.array kept)])
          ((values[0]?.map Value.toList).getD []) (values[2]?.map Value.toList)
          (values[1]?.getD .null) :=
  rfl

end Criterion

end Formula
