import Formula.Proofs.Evaluation.Arguments
import Formula.Proofs.Let.Flat
import Formula.Proofs.Memo.Passive

/-!
# `LET` as the call of a lambda

A `LET` binds names to expressions, the call of a lambda binds its parameters to values. Over
stateless functions that makes no difference when the values are those of the expressions, each in
the scope of the names before it: the scope of the call holds in advance what the names of the `LET`
come to when they are looked up.
-/

namespace Formula

open Evaluation

/-! ### Calls of a lambda just made -/

namespace Expr

/-- `LAMBDA(name, …, body)(value, …)`, under a spelling of its keyword. -/
def invokeLambda (keyword : String) (names : List String) (body : Expr) (values : List Value) :
    Expr :=
  .invoke (.call keyword (names.map .variable ++ [body])) (values.map .literal)

variable {c : Context} {keyword : String} {names : List String} {values : List Value} {body : Expr}

lemma bindingNames_variables (evaluate : Evaluator) (position : ℕ) (names : List String) :
    bindingNames evaluate position (names.map .variable) = pure names := by
  induction names generalizing position with
  | nil => rfl
  | cons name names ih =>
    simp only [List.map_cons, bindingNames, bindingName, ih, pure_bind]

/-- Names that can be bound in one scope make a lambda. -/
lemma runFrom_applyLambda {evaluate : Evaluator} {s : State}
    (valid : validateNames s.context.policy (names.zipIdx 1) = .ok ()) :
    (Function.applyLambda evaluate (names.map .variable ++ [body])).runFrom s =
      (.ok (.lambda names body), s) := by
  have shape : Function.lambdaShape (names.map Expr.variable ++ [body]).length =
      .ok (Function.numbered "parameter" .name names.length ++ [⟨"calculation", .body⟩]) := by
    simp [Function.lambdaShape]
  simp only [Function.applyLambda, shape, Evaluation.ofExcept, pure_bind, List.getLast?_concat,
    List.dropLast_concat, lambdaParameters, bindingNames_variables, bind_assoc]
  rw [runFrom_bind_of_ok (runFrom_context s), valid]
  rfl

/-- The call of a lambda opens a scope with its parameters. -/
lemma opensScope_invokeLambda (known : c.function? keyword = .ok (some .lambdaForm))
    (valid : validateNames c.policy (names.zipIdx 1) = .ok ())
    (length : values.length = names.length) :
    (invokeLambda keyword names body values).OpensScope c
      (Function.parameterBindings names values) body := by
  intro history
  filter_upwards [Filter.eventually_ge_atTop 1] with depth enough
  obtain ⟨depth, rfl⟩ := Nat.exists_eq_add_of_le' enough
  have made : (evaluate (depth + 1) (.call keyword (names.map .variable ++ [body]))).runFrom
      ⟨c, history⟩ = (.ok (.lambda names body), ⟨c, history⟩) :=
    (runFrom_call (s := ⟨c, history⟩) known _).trans (runFrom_applyLambda valid)
  have called : Function.callLambda (evaluate (depth + 1)) names body (values.map .literal) =
      inScope (Function.parameterBindings names values) (evaluate (depth + 1) body) := by
    simp only [Function.callLambda, prepare_literals, pure_bind, if_pos length]
  rw [evaluate, invokeLambda, step, runFrom_bind_of_ok made]
  exact congrArg (fun work => Evaluation.runFrom work ⟨c, history⟩) called

end Expr

/-! ### Values of the names of a `LET` -/

/-- That expressions, each in the scope of the names before it, have values. -/
inductive Context.Computes (c : Context) : List (String × Expr) → List Value → Prop
  | nil : Computes c [] []
  | concat {pairs : List (String × Expr)} {values : List Value} {p : String × Expr} {v : Value}
      {history : List Execution} {t : State} (before : Computes c pairs values)
      (answers : p.2.Answers ⟨c.scope.bind (Expr.pairBindings 1 pairs), history⟩ (.ok v) t) :
      Computes c (pairs ++ [p]) (values ++ [v])

namespace Context.Computes

variable {c : Context} {pairs : List (String × Expr)} {values : List Value}

lemma length_eq (h : c.Computes pairs values) : values.length = pairs.length := by
  induction h with
  | nil => rfl
  | concat _ _ ih => simp [ih]

end Context.Computes

lemma Expr.pairBindings_concat (position : ℕ) (pairs : List (String × Expr)) (p : String × Expr) :
    pairBindings position (pairs ++ [p]) = pairBindings position pairs ++
      [⟨p.1, position + 2 * pairs.length, .deferred p.2 none⟩] := by
  induction pairs generalizing position with
  | nil => rfl
  | cons q qs ih =>
    simp only [List.cons_append, pairBindings, ih, List.length_cons]
    congr 4
    omega

lemma Function.parameterBindings_concat {names : List String} {values : List Value}
    (length : values.length = names.length) (name : String) (v : Value) :
    parameterBindings (names ++ [name]) (values ++ [v]) = parameterBindings names values ++
      [⟨name, names.length + 1, .ready v⟩] := by
  simp [parameterBindings, List.zipIdx_append, List.zip_append, length, Nat.add_comm]

/-- The parameters are bound in their order. -/
lemma Function.map_name_parameterBindings {names : List String} {values : List Value}
    (length : values.length = names.length) :
    ((parameterBindings names values).map fun b => (b.name, b.position)).map Prod.fst = names := by
  have firsts : ((names.zipIdx 1).zip values).map Prod.fst = names.zipIdx 1 :=
    List.map_fst_zip (by simp [length])
  calc ((parameterBindings names values).map fun b => (b.name, b.position)).map Prod.fst
      = (((names.zipIdx 1).zip values).map Prod.fst).map Prod.fst := by simp [parameterBindings]
    _ = names := by rw [firsts, List.zipIdx_map_fst]

/-- The scope of the call holds the values in advance that the names of the `LET` have. -/
lemma Context.Computes.serves {c : Context} {pairs : List (String × Expr)} {values : List Value}
    (h : c.Computes pairs values) (stateless : c.registry.IsStateless) :
    (c.scope.bind (Function.parameterBindings (pairs.map Prod.fst) values)).Serves
      (c.scope.bind (Expr.pairBindings 1 pairs)) := by
  induction h with
  | nil => exact .refl _
  | @concat pairs values p v history t before answers ih =>
    have length : values.length = (pairs.map Prod.fst).length := by simp [before.length_eq]
    rw [List.map_append, List.map_singleton, Function.parameterBindings_concat length,
      Expr.pairBindings_concat, bind_concat, bind_concat]
    refine .binding ⟨rfl, .inr ⟨p.2, v, rfl, fun history' => ?_, .inl rfl⟩⟩ ih
    exact answers.passively (.refl _) (by simpa [registry] using stateless) history'

namespace Expr

variable {c : Context} {keyword maker : String} {p : String × Expr} {ps : List (String × Expr)}
  {values : List Value}

/-- **`LET` agrees with the call of a lambda.** Over stateless functions, a `LET` whose names can be
bound together has the same outcomes as the call of a lambda with these names as parameters and the
same body, if the arguments of the call are the values of the expressions that the `LET` binds, each
in the scope of the names before it. -/
theorem answers_letIn_iff_invokeLambda (stateless : c.registry.IsStateless)
    (lets : c.function? keyword = .ok (some .letForm))
    (makes : c.function? maker = .ok (some .lambdaForm))
    (identifiers : ∀ q ∈ p :: ps, isIdentifier q.1.toList = true)
    (distinct : (p :: ps).Pairwise fun q q' => c.policy.namesEqual q.1 q'.1 = false)
    (computes : c.Computes (p :: ps) values) (body : Expr) (history : List Execution)
    (outcome : Except Fault Value) :
    (∃ t, (letIn keyword (p :: ps) body).Answers ⟨c, history⟩ outcome t) ↔
      ∃ t, (invokeLambda maker ((p :: ps).map Prod.fst) body values).Answers ⟨c, history⟩ outcome
        t := by
  have length : values.length = ((p :: ps).map Prod.fst).length := by simp [computes.length_eq]
  have valid {names : List (String × ℕ)} (same : names.map Prod.fst = (p :: ps).map Prod.fst) :
      validateNames c.policy names = .ok () := by
    rw [validateNames_eq_ok_iff, same]
    exact ⟨by simpa using identifiers, List.pairwise_map.2 distinct⟩
  have left : (letIn keyword (p :: ps) body).OpensScope c (pairBindings 1 (p :: ps)) body :=
    opensScope_letIn lets
  have right : (invokeLambda maker ((p :: ps).map Prod.fst) body values).OpensScope c
      (Function.parameterBindings ((p :: ps).map Prod.fst) values) body :=
    opensScope_invokeLambda makes (valid (List.zipIdx_map_fst 1 _)) length
  rcases Nat.lt_or_ge c.depth maxScopeDepth with room | full
  · have pushed : c.push (pairBindings 1 (p :: ps)) = _ :=
      Context.push_eq_ok_iff.2 ⟨room, valid (map_name_pairBindings 1 _), rfl⟩
    have pushed' : c.push (Function.parameterBindings ((p :: ps).map Prod.fst) values) = _ :=
      Context.push_eq_ok_iff.2 ⟨room, valid (Function.map_name_parameterBindings length), rfl⟩
    rw [left.exists_answers_iff pushed, right.exists_answers_iff pushed']
    have stateless' : (c.scope.bind (pairBindings 1 (p :: ps))).registry.IsStateless := by
      simpa [Context.registry] using stateless
    exact (answers_iff_answersPassively (.refl _) stateless' history []).trans
      (answers_iff_answersPassively (computes.serves stateless) stateless' history []).symm
  · -- Without room for the scope both fail, whatever the body is.
    have refused (bindings : List Binding) :
        c.push bindings = .error (.evaluation .nestingTooDeep) :=
      Context.push_eq_error_iff.2 (.inl ⟨full, rfl⟩)
    rw [left.exists_answers_iff_of_error (refused _), right.exists_answers_iff_of_error (refused _)]

/-- `LET(a, NULL, b, [a], b)` and `LAMBDA(a, b, b)(NULL, [NULL])`. -/
theorem answers_letIn_iff_invokeLambda_two :
    let c : Context := .root {}
    let p : String × Expr := ("a", .null)
    let ps : List (String × Expr) := [("b", .array [.variable "a"])]
    let values : List Value := [.null, .array [.null]]
    c.registry.IsStateless ∧ c.function? "LET" = .ok (some .letForm) ∧
    c.function? "LAMBDA" = .ok (some .lambdaForm) ∧
    (∀ q ∈ p :: ps, isIdentifier q.1.toList = true) ∧
    ((p :: ps).Pairwise fun q q' => c.policy.namesEqual q.1 q'.1 = false) ∧
    c.Computes (p :: ps) values ∧
    ∀ outcome, (∃ t, (letIn "LET" (p :: ps) (.variable "b")).Answers ⟨c, []⟩ outcome t) ↔
      ∃ t, (invokeLambda "LAMBDA" ((p :: ps).map Prod.fst) (.variable "b") values).Answers
        ⟨c, []⟩ outcome t := by
  intro c p ps values
  have stateless : c.registry.IsStateless := Registry.isStateless_builtins
  have identifiers : ∀ q ∈ p :: ps, isIdentifier q.1.toList = true := by
    simp only [p, ps, List.forall_mem_cons]
    decide
  have distinct : (p :: ps).Pairwise fun q q' => c.policy.namesEqual q.1 q'.1 = false := by
    simp only [p, ps, List.pairwise_cons, List.forall_mem_cons]
    exact ⟨⟨by decide, by simp⟩, by simp, .nil⟩
  obtain ⟨t, first⟩ : ∃ t, Expr.null.Answers ⟨c.scope, []⟩ (.ok .null) t := ⟨_, 1, rfl⟩
  obtain ⟨t', second⟩ : ∃ t, (Expr.array [.variable "a"]).Answers
      ⟨c.scope.bind (pairBindings 1 [p]), []⟩ (.ok (.array [.null])) t := ⟨_, 3, rfl⟩
  have computes : c.Computes (p :: ps) values := .concat (.concat .nil first) second
  exact ⟨stateless, rfl, rfl, identifiers, distinct, computes,
    answers_letIn_iff_invokeLambda stateless rfl rfl identifiers distinct computes _ []⟩

end Expr

end Formula
