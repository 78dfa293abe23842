import Formula.Proofs.Evaluation.Depth

/-!
# Values of arguments

Lambdas and all functions but the binding constructs are given the values of their arguments. The
values come from left to right, in the context of the call, and a spread stands for the items of its
array, so there may be more or fewer values than arguments. What is done with the values afterwards,
the check of their number included, no longer knows how they were written.
-/

namespace Formula

open Evaluation

/-! ### Preparing values -/

namespace Expr

/-- The values of some arguments come before those of the arguments behind them. -/
lemma prepare_append (evaluate : Evaluator) (es fs : List Expr) :
    prepare evaluate (es ++ fs) = prepare evaluate es >>= fun vs =>
      prepare evaluate fs >>= fun ws => pure (vs ++ ws) := by
  induction es with
  | nil => simp only [List.nil_append, prepare, pure_bind, bind_pure]
  | cons e es ih =>
    cases e with
    | spread e =>
      simp only [List.cons_append, prepare, ih, bind_assoc]
      refine bind_congr fun v => ?_
      cases v with
      | array items => simp only [bind_assoc, pure_bind, List.append_assoc]
      | _ => rfl
    | _ => simp only [List.cons_append, prepare, ih, bind_assoc, pure_bind]

/-- Expressions that are no spreads have one value each. -/
lemma prepare_eq_evaluateAll {es : List Expr} (single : ∀ e ∈ es, ∀ list, e ≠ .spread list)
    (evaluate : Evaluator) : prepare evaluate es = evaluateAll evaluate es := by
  induction es with
  | nil => rfl
  | cons e es ih =>
    rw [List.forall_mem_cons] at single
    cases e with
    | spread list => exact absurd rfl (single.1 list)
    | _ => simp only [prepare, evaluateAll, ih single.2]

lemma prepare_literals (depth : ℕ) (values : List Value) :
    prepare (evaluate (depth + 1)) (values.map .literal) = pure values := by
  induction values with
  | nil => rfl
  | cons v vs ih =>
    have literal : evaluate (depth + 1) (.literal v) = pure v := rfl
    simp only [List.map_cons, prepare, literal, ih, pure_bind]

end Expr

/-! ### What is done with the values -/

namespace Function

/-- That a function is given the values of its arguments, which the binding constructs are not. -/
def TakesValues : Function → Prop
  | .letForm => False
  | .lambdaForm => False
  | _ => True

/-- What a function makes of the values of its arguments. -/
def onValues (evaluate : Evaluator) : Function → List Value → Evaluation Value
  | .reducer r, values => ofExcept (r.reduce values)
  | .rangeReducer r, values => applyRange evaluate r values
  | .host f, values => applyHost f values
  | f, values => f.apply evaluate (values.map .literal)

/-- What the call of a lambda makes of the values of its arguments. -/
def lambdaOnValues (evaluate : Evaluator) (parameters : List String) (body : Expr)
    (values : List Value) : Evaluation Value :=
  if values.length = parameters.length then
    inScope (parameterBindings parameters values) (evaluate body)
  else fail (.arity (.lambdaArguments parameters.length values.length))

lemma apply_eq_bind {f : Function} (takes : f.TakesValues) (evaluate : Evaluator)
    (arguments : List Expr) :
    f.apply evaluate arguments = Expr.prepare evaluate arguments >>= f.onValues evaluate := by
  cases f with
  | letForm => exact takes.elim
  | lambdaForm => exact takes.elim
  | _ => rfl

lemma callLambda_eq_bind (evaluate : Evaluator) (parameters : List String) (body : Expr)
    (arguments : List Expr) :
    callLambda evaluate parameters body arguments =
      Expr.prepare evaluate arguments >>= lambdaOnValues evaluate parameters body :=
  rfl

/-- A function does nothing with values of which it does not take that many. -/
lemma onValues_of_shape {f : Function} (takes : f.TakesValues) {values : List Value} {fault : Fault}
    (refused : f.shape values.length = .error fault) (evaluate : Evaluator) :
    f.onValues evaluate values = fail fault := by
  cases f with
  | letForm => exact takes.elim
  | lambdaForm => exact takes.elim
  | reducer r => cases refused
  | rangeReducer r =>
    simp only [shape] at refused
    simp only [onValues, applyRange, refused]
    rfl
  | host f =>
    simp only [shape] at refused
    simp only [onValues, applyHost, refused]
    rfl

end Function

/-! ### Depth -/

section

variable {excused : Failure → Prop} {evaluate other : Evaluator}

lemma Evaluator.Agrees.prepare (h : evaluate.Agrees excused other) (es : List Expr) :
    Evaluation.Agrees excused (Expr.prepare evaluate es) (Expr.prepare other es) := by
  induction es with
  | nil => exact .rfl
  | cons e es ih =>
    cases e with
    | spread e =>
      refine (h e).bind fun v => ?_
      cases v with
      | array items => exact ih.bind fun _ => .rfl
      | _ => exact .rfl
    | _ => exact (h _).bind fun _ => ih.bind fun _ => .rfl

lemma Evaluation.Agrees.inScope {α : Type} {work work' : Evaluation α}
    (h : Evaluation.Agrees excused work work') (bindings : List Binding) :
    Evaluation.Agrees excused (Evaluation.inScope bindings work)
      (Evaluation.inScope bindings work') := by
  intro s
  cases pushed : s.context.push bindings with
  | error fault =>
    rw [runFrom_inScope_of_error pushed, runFrom_inScope_of_error pushed]
    exact .inr (Eq.refl _)
  | ok inner =>
    rw [runFrom_inScope_of_ok pushed, runFrom_inScope_of_ok pushed]
    exact (h ⟨inner, s.history⟩).imp_right fun eq => by rw [eq]

lemma Evaluator.Agrees.applyRange (h : evaluate.Agrees excused other) (r : RangeReducer)
    (values : List Value) :
    Evaluation.Agrees excused (Function.applyRange evaluate r values)
      (Function.applyRange other r values) := by
  refine agrees_iff_follows.2 ?_
  change (Simulation.equality excused).logic.Holds ()
    (fun i => Function.applyRange (i.elim (fun _ => evaluate) fun _ => other) r values) _
  refine (Simulation.equality excused).logic.applyRange trivial (fun _ _ => trivial) ?_
  exact fun e _ => agrees_iff_follows.1 (h e)

lemma Evaluator.Agrees.onValues (h : evaluate.Agrees excused other) (f : Function)
    (values : List Value) :
    Evaluation.Agrees excused (f.onValues evaluate values) (f.onValues other values) := by
  cases f with
  | reducer r => exact .rfl
  | rangeReducer r => exact h.applyRange r values
  | host f => exact .rfl
  | letForm => exact h.apply .letForm _
  | lambdaForm => exact h.apply .lambdaForm _

lemma Evaluator.Agrees.lambdaOnValues (h : evaluate.Agrees excused other) (parameters : List String)
    (body : Expr) (values : List Value) :
    Evaluation.Agrees excused (Function.lambdaOnValues evaluate parameters body values)
      (Function.lambdaOnValues other parameters body values) := by
  unfold Function.lambdaOnValues
  split
  · exact (h body).inScope _
  · exact .rfl

end

lemma Expr.deepening_prepare (es : List Expr) : IsDeepening fun n => prepare (evaluate n) es :=
  fun depth => (deepens_evaluate depth).prepare es

lemma Function.deepening_onValues (f : Function) (values : List Value) :
    IsDeepening fun n => f.onValues (Expr.evaluate n) values :=
  fun depth => (Expr.deepens_evaluate depth).onValues f values

lemma Function.deepening_lambdaOnValues (parameters : List String) (body : Expr)
    (values : List Value) :
    IsDeepening fun n => lambdaOnValues (Expr.evaluate n) parameters body values :=
  fun depth => (Expr.deepens_evaluate depth).lambdaOnValues parameters body values

/-! ### Calls whose arguments have values -/

section

variable {arguments : List Expr} {values : List Value} {s m t : State} {outcome : Except Fault Value}

/-- A function that is given values comes to what it makes of them. -/
lemma Function.reaches_apply_iff {f : Function} (takes : f.TakesValues)
    (prepared : Reaches (fun n => Expr.prepare (Expr.evaluate n) arguments) s (.ok values) m) :
    Reaches (fun n => f.apply (Expr.evaluate n) arguments) s outcome t ↔
      Reaches (fun n => f.onValues (Expr.evaluate n) values) m outcome t := by
  simp only [apply_eq_bind takes]
  exact prepared.bind_iff (Expr.deepening_prepare arguments) f.deepening_onValues

/-- The call of a lambda that has been made comes to what the lambda makes of the values. -/
lemma Expr.answers_invoke_iff {target body : Expr} {parameters : List String} {u : State}
    (made : target.Answers u (.ok (.lambda parameters body)) s)
    (prepared : Reaches (fun n => prepare (evaluate n) arguments) s (.ok values) m) :
    (invoke target arguments).Answers u outcome t ↔
      Reaches (fun n => Function.lambdaOnValues (evaluate n) parameters body values) m
        outcome t := by
  have made : Reaches (fun n => evaluate n target) u (.ok (.lambda parameters body)) s := made
  rw [answers_iff_step]
  refine (made.bind_iff (fun n => deepens_evaluate n target) fun v => ?_).trans ?_
  · cases v with
    | lambda parameters body =>
      exact fun n => ((deepens_evaluate n).prepare arguments).bind fun values =>
        Function.deepening_lambdaOnValues parameters body values n
    | _ => exact fun _ => .rfl
  · simp only [Function.callLambda_eq_bind]
    exact prepared.bind_iff (deepening_prepare arguments)
      (Function.deepening_lambdaOnValues parameters body)

end

end Formula
