import Formula.Proofs.Evaluation.Arguments

/-!
# Spreads of array literals

The items of an array literal are evaluated where it stands, from left to right, just as arguments
are. To spread an array literal among arguments is therefore to write its items there: the same
values come in the same order, and whatever is called cannot tell the difference. Only the depth to
which the evaluation is followed can, since the items of the array lie one level deeper.
-/

namespace Formula

open Evaluation

/-! ### Evaluations that keep step -/

namespace Evaluation

variable {α β : Type} {work other : ℕ → Evaluation α} {next next' : ℕ → α → Evaluation β}
  {s t : State}

/-- That two families of evaluations, by depth, come to the same, the first of them at most one
level deeper than the second. -/
structure KeepsStep (work other : ℕ → Evaluation α) : Prop where
  forth : ∀ n, Agrees (· = .exhausted) (work n) (other n)
  back : ∀ n, Agrees (· = .exhausted) (other n) (work (n + 1))

lemma IsDeepening.keepsStep (h : IsDeepening work) : KeepsStep work work :=
  ⟨fun _ => .rfl, h⟩

lemma KeepsStep.const (work : Evaluation α) : KeepsStep (fun _ => work) fun _ => work :=
  ⟨fun _ => .rfl, fun _ => .rfl⟩

lemma KeepsStep.bind (first : KeepsStep work other)
    (second : ∀ a, KeepsStep (fun n => next n a) fun n => next' n a) :
    KeepsStep (fun n => work n >>= next n) fun n => other n >>= next' n where
  forth n := (first.forth n).bind fun a => (second a).forth n
  back n := (first.back n).bind fun a => (second a).back n

lemma KeepsStep.reaches_iff (h : KeepsStep work other) {outcome : Except Fault α} :
    Reaches work s outcome t ↔ Reaches other s outcome t := by
  constructor
  · rintro ⟨n, run⟩
    exact ⟨n, (h.forth n).runFrom_eq run⟩
  · rintro ⟨n, run⟩
    exact ⟨n + 1, (h.back n).runFrom_eq run⟩

end Evaluation

namespace Expr

variable {xs : List Expr} (single : ∀ x ∈ xs, ∀ list, x ≠ .spread list)
include single

/-! ### Values of the arguments -/

/-- The spread of an array literal has the values of the items, one level deeper. -/
lemma prepare_spread_array (depth : ℕ) :
    prepare (evaluate (depth + 1)) [.spread (.array xs)] = prepare (evaluate depth) xs := by
  have items : evaluate (depth + 1) (.array xs) =
      evaluateAll (evaluate depth) xs >>= fun vs => pure (.array vs) := rfl
  rw [prepare_eq_evaluateAll single]
  simp only [prepare, items, bind_assoc, pure_bind, List.append_nil, bind_pure]

lemma keepsStep_spread_array :
    KeepsStep (fun n => prepare (evaluate n) [.spread (.array xs)])
      fun n => prepare (evaluate n) xs where
  forth n := by
    cases n with
    | zero => exact fun s => .inl ⟨_, rfl, rfl⟩
    | succ n =>
      rw [prepare_spread_array single]
      exact deepening_prepare xs n
  back n := by
    rw [prepare_spread_array single]
    exact .rfl

/-- The same values come, in the same order, wherever the items stand among other arguments. -/
lemma keepsStep_prepare (before after : List Expr) :
    KeepsStep (fun n => prepare (evaluate n) (before ++ .spread (.array xs) :: after))
      fun n => prepare (evaluate n) (before ++ xs ++ after) := by
  have split : before ++ .spread (.array xs) :: after =
      before ++ [.spread (.array xs)] ++ after := by simp
  simp only [split, prepare_append, bind_assoc, pure_bind]
  refine (deepening_prepare before).keepsStep.bind fun vs => ?_
  refine (keepsStep_spread_array single).bind fun ws => ?_
  exact (deepening_prepare after).keepsStep.bind fun us => .const (pure (vs ++ ws ++ us))

/-! ### Calls -/

variable {s t m : State} {outcome : Except Fault Value} {values : List Value}
  (before after : List Expr)

lemma answers_call_spread_array_iff {name : String}
    (takes : ∀ f, s.context.function? name = .ok (some f) → f.TakesValues) :
    (call name (before ++ .spread (.array xs) :: after)).Answers s outcome t ↔
      (call name (before ++ xs ++ after)).Answers s outcome t := by
  rcases found : s.context.function? name with fault | _ | f
  case ok.some =>
    simp only [answers_call_iff found, Function.apply_eq_bind (takes f found)]
    refine KeepsStep.reaches_iff ((keepsStep_prepare single before after).bind fun values => ?_)
    exact (f.deepening_onValues values).keepsStep
  -- Without a function to call no argument is evaluated.
  all_goals
    simp only [answers_iff_step, step, runFrom_bind, runFrom_context, runFrom_ofExcept, found,
      Except.mapError]

lemma answers_invoke_spread_array_iff (target : Expr) :
    (invoke target (before ++ .spread (.array xs) :: after)).Answers s outcome t ↔
      (invoke target (before ++ xs ++ after)).Answers s outcome t := by
  have deepens : IsDeepening fun n => evaluate n target := fun n => deepens_evaluate n target
  simp only [answers_iff_step]
  refine KeepsStep.reaches_iff (deepens.keepsStep.bind fun v => ?_)
  cases v with
  | lambda parameters body =>
    simp only [Function.callLambda_eq_bind]
    refine (keepsStep_prepare single before after).bind fun values => ?_
    exact (Function.deepening_lambdaOnValues parameters body values).keepsStep
  | _ => exact .const _

omit single

/-- A function counts the values that it is given. -/
lemma answers_call_of_shape {arguments : List Expr} {name : String} {f : Function} {fault : Fault}
    (known : s.context.function? name = .ok (some f)) (takes : f.TakesValues)
    (prepared : Reaches (fun n => prepare (evaluate n) arguments) s (.ok values) m)
    (refused : f.shape values.length = .error fault) :
    (call name arguments).Answers s (.error fault) m := by
  have fails := Function.onValues_of_shape takes refused (evaluate 0)
  rw [answers_call_iff known, Function.reaches_apply_iff takes prepared]
  exact ⟨0, congrArg (Evaluation.runFrom · m) fails⟩

/-- A lambda counts the values that it is given. -/
lemma answers_invoke_of_length_ne {arguments : List Expr} {target body : Expr}
    {parameters : List String} (made : target.Answers s (.ok (.lambda parameters body)) m)
    (prepared : Reaches (fun n => prepare (evaluate n) arguments) m (.ok values) t)
    (differs : values.length ≠ parameters.length) :
    (invoke target arguments).Answers s
      (.error (.arity (.lambdaArguments parameters.length values.length))) t := by
  have fails : Function.lambdaOnValues (evaluate 0) parameters body values =
      fail (.arity (.lambdaArguments parameters.length values.length)) := if_neg differs
  rw [answers_invoke_iff made prepared]
  exact ⟨0, congrArg (Evaluation.runFrom · t) fails⟩

/-- **To spread an array literal is to write its items in place.** Among the arguments of whatever
is given values, be it a function or a lambda, the spread of an array literal whose items are no
spreads and the items themselves lead to the same outcome, after the same executions in the same
order, and to the same state. The number of arguments is checked on the values: where it is refused,
the fault tells how many values there are when the items are counted one by one. -/
theorem answers_spread_array_iff {xs : List Expr} (single : ∀ x ∈ xs, ∀ list, x ≠ .spread list)
    (before after : List Expr) (s : State) :
    (∀ name, (∀ f, s.context.function? name = .ok (some f) → f.TakesValues) →
      ∀ outcome t, (call name (before ++ .spread (.array xs) :: after)).Answers s outcome t ↔
        (call name (before ++ xs ++ after)).Answers s outcome t) ∧
    (∀ target outcome t,
      (invoke target (before ++ .spread (.array xs) :: after)).Answers s outcome t ↔
        (invoke target (before ++ xs ++ after)).Answers s outcome t) ∧
    (∀ name f values t fault, s.context.function? name = .ok (some f) → f.TakesValues →
      Reaches (fun n => prepare (evaluate n) (before ++ xs ++ after)) s (.ok values) t →
      f.shape values.length = .error fault →
      (call name (before ++ .spread (.array xs) :: after)).Answers s (.error fault) t) ∧
    ∀ target parameters body m values t, target.Answers s (.ok (.lambda parameters body)) m →
      Reaches (fun n => prepare (evaluate n) (before ++ xs ++ after)) m (.ok values) t →
      values.length ≠ parameters.length →
      (invoke target (before ++ .spread (.array xs) :: after)).Answers s
        (.error (.arity (.lambdaArguments parameters.length values.length))) t := by
  refine ⟨?calls, ?invocations, ?functions, ?lambdas⟩
  case calls => exact fun name takes _ _ => answers_call_spread_array_iff single before after takes
  case invocations => exact fun target _ _ => answers_invoke_spread_array_iff single before after _
  case functions =>
    intro name f values t fault known takes prepared refused
    have callee : ∀ g, s.context.function? name = .ok (some g) → g.TakesValues := by
      intro g found
      cases known.symm.trans found
      exact takes
    rw [answers_call_spread_array_iff single before after callee]
    exact answers_call_of_shape known takes prepared refused
  case lambdas =>
    intro target parameters body m values t made prepared differs
    rw [answers_invoke_spread_array_iff single before after]
    exact answers_invoke_of_length_ne made prepared differs

/-- `COUNTIF(...[NULL, NULL], ...[NULL])` has three values, which are too many. -/
theorem answers_spread_array_iff_counted :
    let s : State := ⟨.root {}, []⟩
    let xs : List Expr := [.null, .null]
    let after : List Expr := [.spread (.array [.null])]
    let fault : Fault := .arity (.rangeArguments "COUNTIF" false 3)
    (∀ x ∈ xs, ∀ list, x ≠ .spread list) ∧
    (call "COUNTIF" (.spread (.array xs) :: after)).Answers s (.error fault) s ∧
    (call "COUNTIF" (xs ++ after)).Answers s (.error fault) s := by
  intro s xs after fault
  have single : ∀ x ∈ xs, ∀ list, x ≠ .spread list := by simp [xs]
  let f : Function := .rangeReducer { name := "COUNTIF", reducer := .counta, valueRange := false }
  have known : s.context.function? "COUNTIF" = .ok (some f) := rfl
  have prepared : Reaches (fun n => prepare (evaluate n) (xs ++ after)) s
      (.ok [.null, .null, .null]) s := ⟨2, rfl⟩
  obtain ⟨calls, -, functions, -⟩ := answers_spread_array_iff single [] after s
  have counted := functions "COUNTIF" f _ s fault known trivial prepared rfl
  have takes : ∀ g, s.context.function? "COUNTIF" = .ok (some g) → g.TakesValues := by
    intro g found
    cases known.symm.trans found
    trivial
  exact ⟨single, counted, (calls "COUNTIF" takes _ _).1 counted⟩

end Expr

end Formula
