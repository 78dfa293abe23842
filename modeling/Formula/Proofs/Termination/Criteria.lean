import Formula.Proofs.Termination.Convergence

/-!
# Criteria and termination

The expression of a criterion is read from text while a formula is evaluated, and evaluated in the
context as it is, without a scope of its own. The limit on scopes therefore does not see criteria
that lead to criteria, and an evaluation may go on forever. It does so only in this way: if criteria
could lead to criteria a given number of times only, every evaluation would end.
-/

namespace Formula

open Evaluation

namespace Expr

/-! ### A bound on criteria -/

/-- The value of an expression, to a given depth, when criteria lead to criteria at most `levels`
times; more than that is a fault. -/
def evaluateWithin (limit : Fault) : (levels depth : ℕ) → Evaluator
  | _, 0, _ => throw .exhausted
  | 0, depth + 1, e =>
    e.stepWeighing (Evaluation.lookup (evaluateWithin limit 0 depth)) (evaluateWithin limit 0 depth)
      fun _ => fail limit
  | levels + 1, depth + 1, e =>
    e.stepWeighing (Evaluation.lookup (evaluateWithin limit (levels + 1) depth))
      (evaluateWithin limit (levels + 1) depth) (evaluateWithin limit levels depth)

/-- How the expressions of criteria are evaluated then. -/
def weighWithin (limit : Fault) : (levels depth : ℕ) → Evaluator
  | 0, _ => fun _ => fail limit
  | levels + 1, depth => evaluateWithin limit levels depth

variable {limit : Fault} {e : Expr} {s : State}

lemma evaluateWithin_succ (levels depth : ℕ) (e : Expr) :
    evaluateWithin limit levels (depth + 1) e =
      e.stepWeighing (Evaluation.lookup (evaluateWithin limit levels depth))
        (evaluateWithin limit levels depth) (weighWithin limit levels depth) := by
  cases levels <;> rfl

/-- Under a bound on criteria, every evaluation ends. -/
lemma ends_evaluateWithin (levels : ℕ) (c : Context) :
    Ends (fun _ => True) (evaluateWithin limit levels) c := by
  induction levels generalizing c with
  | zero =>
    exact ends_of_step (evaluateWithin_succ 0) (fun _ _ _ _ => Converges.fail) c
  | succ levels ih =>
    have criteria : ∀ (_ : RangeReducer), True → ∀ c,
        Ends (fun _ => True) (weighWithin limit (levels + 1)) c := fun _ _ c => ih c
    exact ends_of_step (evaluateWithin_succ (levels + 1)) criteria c

/-- A bound that is not reached changes nothing. -/
lemma agrees_evaluateWithin (levels depth : ℕ) :
    (evaluateWithin limit levels depth).Agrees (· = .fault limit) (evaluate depth) := by
  induction depth generalizing levels with
  | zero => exact fun e s => .inr (by cases levels <;> rfl)
  | succ depth ih =>
    intro e
    have criteria : (weighWithin limit levels depth).Agrees (· = .fault limit)
        (evaluate depth) := by
      cases levels with
      | zero => exact fun e s => .inl ⟨_, rfl, rfl⟩
      | succ levels => exact ih levels
    rw [evaluateWithin_succ, evaluate, ← stepWeighing_self]
    exact (ih levels).stepWeighing (ih levels).lookup criteria e

/-- Criteria cannot lead to criteria more often than the depth allows. -/
lemma evaluateWithin_of_le {levels depth : ℕ} (h : depth ≤ levels) :
    evaluateWithin limit levels depth = evaluate depth := by
  induction depth generalizing levels with
  | zero =>
    funext e
    cases levels <;> rfl
  | succ depth ih =>
    cases levels with
    | zero => exact absurd h (Nat.not_succ_le_zero depth)
    | succ levels =>
      funext e
      have below : weighWithin limit (levels + 1) depth = evaluate depth :=
        ih (Nat.le_of_succ_le_succ h)
      rw [evaluateWithin_succ, below, ih (Nat.le_of_succ_le h), stepWeighing_self]
      rfl

lemma answers_of_evaluateWithin {levels : ℕ} {outcome : Except Fault Value} {t : State}
    (h : e.AnswersBy (evaluateWithin limit levels) s outcome t) :
    outcome = .error limit ∨ e.Answers s outcome t := by
  obtain ⟨depth, run⟩ := h
  rcases agrees_evaluateWithin levels depth e s with ⟨_, rfl, failed⟩ | eq
  · rw [run] at failed
    exact .inl (mapError_fault_injective failed)
  · exact .inr ⟨depth, eq.trans run⟩

/-- An evaluation goes on forever only when criteria lead to criteria without end: with a bound on
that it ends, with the same answer as without unless the bound is exceeded, and it has an answer
without the bound just when some bound is not exceeded. -/
theorem answers_iff_evaluateWithin (e : Expr) (s : State) :
    (∀ limit levels, ∃ outcome t, e.AnswersBy (evaluateWithin limit levels) s outcome t) ∧
    (∀ limit levels outcome t, e.AnswersBy (evaluateWithin limit levels) s outcome t →
      outcome = .error limit ∨ e.Answers s outcome t) ∧
    ((∃ outcome t, e.Answers s outcome t) ↔
      ∃ limit levels outcome t, e.AnswersBy (evaluateWithin limit levels) s outcome t ∧
        outcome ≠ .error limit) := by
  refine ⟨fun limit levels => ?_, fun _ _ _ _ => answers_of_evaluateWithin, ?_, ?_⟩
  · obtain ⟨outcome, t, _, _, run⟩ := ends_evaluateWithin levels s.context e s
      ⟨rfl, fun _ _ _ => trivial⟩
    exact ⟨outcome, t, run.exists⟩
  · rintro ⟨outcome, t, depth, run⟩
    have other : ∃ limit : Fault, outcome ≠ .error limit := by
      by_cases h : outcome = .error (.evaluation .nestingTooDeep)
      · exact ⟨.evaluation .misplacedSpread, by simp [h]⟩
      · exact ⟨_, h⟩
    obtain ⟨limit, unequal⟩ := other
    exact ⟨limit, depth, outcome, t, ⟨depth, by rw [evaluateWithin_of_le (Nat.le_refl depth), run]⟩,
      unequal⟩
  · rintro ⟨limit, levels, outcome, t, answers, unequal⟩
    exact ⟨outcome, t, (answers_of_evaluateWithin answers).resolve_left unequal⟩

/-! ### A criterion that leads to itself -/

/-- The formula `COUNTIF(TRUE,c)`. -/
def weighing : Expr := .call "COUNTIF" [.literal (.boolean true), .variable "c"]

/-- Whether an expression is that formula. -/
def isWeighing : Expr → Bool
  | .call name [.literal (.boolean b), .variable c] => name == "COUNTIF" && b && c == "c"
  | _ => false

lemma eq_weighing (h : e.isWeighing = true) : e = weighing := by
  unfold isWeighing at h
  split at h
  · simp only [Bool.and_eq_true, beq_iff_eq] at h
    obtain ⟨⟨rfl, rfl⟩, rfl⟩ := h
    rfl
  · cases h

/-- A root under which the criterion `c` asks for the value of the formula itself. -/
def selfCriterion : Root := { vars := [("c", .text "=COUNTIF(TRUE,c)")] }

lemma parse_weighing : Expr.parse "COUNTIF(TRUE,c)" = .ok weighing := by
  have read : (Expr.parse "COUNTIF(TRUE,c)").toOption.any isWeighing = true := by
    decide +kernel
  cases parsed : Expr.parse "COUNTIF(TRUE,c)" with
  | error fault => simp [parsed, Except.toOption] at read
  | ok e =>
    rw [parsed] at read
    rw [eq_weighing read]

lemma compile_selfCriterion :
    Criterion.compile (.root selfCriterion) (.text "=COUNTIF(TRUE,c)") =
      .ok (.compare .eq weighing) := by
  have split : Criterion.splitSign? "=COUNTIF(TRUE,c)".toList =
      some (.eq, "COUNTIF(TRUE,c)".toList) := by
    decide +kernel
  simp only [Criterion.compile, split, String.ofList_toList, Context.parse, parse_weighing]
  rfl

/-- A comparison is not decided before its expression is evaluated. -/
lemma exhausted_reduceMatching {evaluate : Evaluator} (reduce : List Value → Evaluation Value)
    (candidate : Value) {operand : Value} {op : BinaryOp} {right : Expr}
    (compiled : Criterion.compile s.context operand = .ok (.compare op right))
    (exhausted : ((evaluate right).runFrom s).1 = .error .exhausted) :
    ((Criterion.reduceMatching evaluate reduce [candidate] none operand).runFrom s).1 =
      .error .exhausted := by
  have asked : (ofExcept (Criterion.compile s.context operand)).runFrom s =
      (.ok (.compare op right), s) := by
    rw [runFrom_ofExcept, compiled]
    rfl
  have tested : (((Criterion.compare op right).test evaluate candidate).runFrom s).1 =
      .error .exhausted := congrArg Prod.fst (runFrom_bind_of_error exhausted)
  have selected : (((Criterion.compare op right).select evaluate
      ([candidate].zip [candidate])).runFrom s).1 = .error .exhausted :=
    congrArg Prod.fst (runFrom_bind_of_error tested)
  rw [Criterion.reduceMatching, runFrom_bind_of_ok (runFrom_context s), runFrom_bind_of_ok asked]
  exact congrArg Prod.fst (runFrom_bind_of_error selected)

lemma runFrom_rangeCall {lookup : String → Evaluation Value} {evaluate : Evaluator} {name : String}
    {arguments : List Expr} {r : RangeReducer} {values : List Value} {t : State}
    (known : s.context.function? name = .ok (some (.rangeReducer r)))
    (prepared : (prepare evaluate arguments).runFrom s = (.ok values, t)) :
    ((Expr.call name arguments).step lookup evaluate).runFrom s =
      (Function.applyRange evaluate r values).runFrom t := by
  rw [runFrom_call known]
  exact runFrom_bind_of_ok prepared

lemma exhausted_weighing (depth : ℕ) (history : List Execution) :
    ((evaluate depth weighing).runFrom ⟨.root selfCriterion, history⟩).1 = .error .exhausted := by
  induction depth using Nat.strong_induction_on generalizing history with
  | _ depth ih =>
    match depth with
    | 0 => rfl
    | 1 => rfl
    | depth + 2 =>
      let s : State := ⟨.root selfCriterion, history⟩
      let r : RangeReducer := { name := "COUNTIF", reducer := .counta, valueRange := false }
      have known : s.context.function? "COUNTIF" = .ok (some (.rangeReducer r)) := rfl
      have values : (prepare (evaluate (depth + 1))
          [.literal (.boolean true), .variable "c"]).runFrom s =
          (.ok [.boolean true, .text "=COUNTIF(TRUE,c)"], s) := rfl
      have unfolded : evaluate (depth + 2) weighing =
          step (Evaluation.lookup (evaluate (depth + 1))) (evaluate (depth + 1))
            (.call "COUNTIF" [.literal (.boolean true), .variable "c"]) := rfl
      have shape : (ofExcept (Function.rangeShape r 2)).runFrom s = (.ok _, s) := rfl
      have again := exhausted_reduceMatching (s := s)
        (fun kept => ofExcept (r.reducer.reduce [.array kept])) (.boolean true)
        compile_selfCriterion (ih (depth + 1) (Nat.lt_succ_self _) history)
      rw [unfolded, runFrom_rangeCall known values, Function.applyRange, List.length_cons,
        List.length_cons, List.length_nil, runFrom_bind_of_ok shape]
      exact again

/-- The formula never comes to an end: each evaluation asks for another one. -/
theorem not_answers_weighing : ∃ e, Expr.parse "COUNTIF(TRUE,c)" = .ok e ∧
    ¬ ∃ outcome t, e.Answers ⟨.root { vars := [("c", .text "=COUNTIF(TRUE,c)")] }, []⟩
      outcome t := by
  refine ⟨weighing, parse_weighing, ?_⟩
  rintro ⟨outcome, t, depth, run⟩
  have exhausted := exhausted_weighing depth []
  rw [selfCriterion, run] at exhausted
  exact mapError_fault_ne_exhausted outcome exhausted

end Expr

end Formula
