import Formula.Proofs.Context.Names
import Formula.Proofs.Let.Nesting

/-!
# `LET` with several names

A `LET` with several names opens one scope. It comes to the same as one `LET` within the other, each
with a single name, except that these need more room: every value sees the names before it and what
is around the `LET`, and neither its own name nor the later ones.
-/

namespace Formula

open Evaluation
open Filter (atTop tendsto_add_atTop_nat)

namespace Expr

/-- `LET(name, value, …, body)`, under a spelling of its keyword. -/
def letIn (keyword : String) (pairs : List (String × Expr)) (body : Expr) : Expr :=
  .call keyword (pairs.flatMap (fun p => [.variable p.1, p.2]) ++ [body])

/-- `LET(name, value, LET(…, body))`, with a single name to each. -/
def nestedLet (keyword : String) (pairs : List (String × Expr)) (body : Expr) : Expr :=
  pairs.foldr (fun p inner => letIn keyword [p] inner) body

/-- The bindings of names to unevaluated values, the first name at `position`. -/
def pairBindings : (position : ℕ) → List (String × Expr) → List Binding
  | _, [] => []
  | position, p :: ps => ⟨p.1, position, .deferred p.2 none⟩ :: pairBindings (position + 2) ps

/-- The names are bound in their order. -/
lemma map_name_pairBindings (position : ℕ) (pairs : List (String × Expr)) :
    ((pairBindings position pairs).map fun b => (b.name, b.position)).map Prod.fst =
      pairs.map Prod.fst := by
  induction pairs generalizing position with
  | nil => rfl
  | cons p ps ih => simpa [pairBindings] using ih (position + 2)

/-! ### Expressions that open a scope -/

/-- That an expression comes to another one in a scope with bindings. -/
def OpensScope (e : Expr) (c : Context) (bindings : List Binding) (body : Expr) : Prop :=
  ∀ history, ∀ᶠ depth in atTop, (evaluate (depth + 1) e).runFrom ⟨c, history⟩ =
    (inScope bindings (evaluate depth body)).runFrom ⟨c, history⟩

namespace OpensScope

variable {e body : Expr} {c inner : Context} {bindings : List Binding}
  {history : List Execution} {outcome : Except Fault Value} {t : State}

/-- The expression answers what the other one answers in the scope. -/
lemma answers_iff (h : e.OpensScope c bindings body) (pushed : c.push bindings = .ok inner) :
    e.Answers ⟨c, history⟩ outcome t ↔
      ∃ t', body.Answers ⟨inner, history⟩ outcome t' ∧ t = t'.within .leave := by
  constructor
  · intro answers
    have later := (tendsto_add_atTop_nat 1).eventually
      (deepens_evaluate.eventually_of_answersBy answers)
    obtain ⟨depth, opens, run⟩ := ((h history).and later).exists
    rw [opens, runFrom_inScope_of_ok pushed, Prod.mk.injEq] at run
    obtain ⟨same, rfl⟩ := run
    exact ⟨_, ⟨depth, Prod.ext same rfl⟩, rfl⟩
  · rintro ⟨t', answers, rfl⟩
    obtain ⟨depth, opens, run⟩ :=
      ((h history).and (deepens_evaluate.eventually_of_answersBy answers)).exists
    exact ⟨depth + 1, by rw [opens, runFrom_inScope_of_ok pushed, run]⟩

lemma exists_answers_iff (h : e.OpensScope c bindings body) (pushed : c.push bindings = .ok inner) :
    (∃ t, e.Answers ⟨c, history⟩ outcome t) ↔ ∃ t, body.Answers ⟨inner, history⟩ outcome t := by
  simp only [h.answers_iff pushed]
  constructor
  · rintro ⟨_, t', answers, rfl⟩
    exact ⟨t', answers⟩
  · rintro ⟨t', answers⟩
    exact ⟨_, t', answers, rfl⟩

/-- Without the scope, it fails. -/
lemma answers_of_error {fault : Fault} (h : e.OpensScope c bindings body)
    (pushed : c.push bindings = .error fault) :
    e.Answers ⟨c, history⟩ (.error fault) ⟨c, history⟩ := by
  obtain ⟨depth, opens⟩ := (h history).exists
  exact ⟨depth + 1, opens.trans (runFrom_inScope_of_error pushed)⟩

lemma exists_answers_iff_of_error {fault : Fault} (h : e.OpensScope c bindings body)
    (pushed : c.push bindings = .error fault) :
    (∃ t, e.Answers ⟨c, history⟩ outcome t) ↔ outcome = .error fault := by
  constructor
  · rintro ⟨t, answers⟩
    exact (answers.unique (h.answers_of_error pushed)).1
  · rintro rfl
    exact ⟨_, h.answers_of_error pushed⟩

end OpensScope

/-! ### A `LET` opens a scope -/

lemma letBindings_pairs (evaluate : Evaluator) (position : ℕ) (pairs : List (String × Expr)) :
    letBindings evaluate position (pairs.flatMap fun p => [.variable p.1, p.2]) =
      pure (pairBindings position pairs) := by
  induction pairs generalizing position with
  | nil => rfl
  | cons p ps ih =>
    have rest := ih (position + 2)
    simp only [List.flatMap_cons, List.cons_append, List.nil_append, letBindings, bindingName,
      rest, pure_bind, pairBindings]

/-- A `LET` checks the number of its arguments, makes the bindings and evaluates its body in a scope
with them. -/
lemma applyLet_concat (evaluate : Evaluator) {pairs : List Expr} (some : pairs ≠ []) (body : Expr) :
    Function.applyLet evaluate (pairs ++ [body]) = (do
      let _ ← Evaluation.ofExcept (Function.letShape (pairs.length + 1))
      let bindings ← letBindings evaluate 1 pairs
      inScope bindings (evaluate body)) := by
  cases pairs with
  | nil => exact absurd rfl some
  | cons name rest =>
    simp only [Function.applyLet, List.length_append, List.length_singleton, List.dropLast_concat,
      List.getLast?_concat]

/-- Names and values in pairs may come before a body. -/
lemma applyLet_of_even (evaluate : Evaluator) (pairs : List Expr) (some : pairs ≠ [])
    (even : pairs.length % 2 = 0) (body : Expr) :
    Function.applyLet evaluate (pairs ++ [body]) =
      letBindings evaluate 1 pairs >>= fun bindings => inScope bindings (evaluate body) := by
  have shape : ∃ parameters, Function.letShape (pairs.length + 1) = .ok parameters := by
    rw [Function.letShape, if_neg (by omega), if_neg (by omega)]
    exact ⟨_, rfl⟩
  obtain ⟨parameters, shape⟩ := shape
  rw [applyLet_concat evaluate some, shape]
  rfl

lemma applyLet_pairs (evaluate : Evaluator) (p : String × Expr) (ps : List (String × Expr))
    (body : Expr) :
    Function.applyLet evaluate (((p :: ps).flatMap fun p => [.variable p.1, p.2]) ++ [body]) =
      inScope (pairBindings 1 (p :: ps)) (evaluate body) := by
  have even : ((p :: ps).flatMap fun p => [Expr.variable p.1, p.2]).length % 2 = 0 := by
    simp only [List.length_flatMap, List.length_cons, List.length_nil, List.map_const',
      List.sum_replicate_nat]
    omega
  rw [applyLet_of_even evaluate _ (by simp) even, letBindings_pairs, pure_bind]

variable {keyword : String} {body : Expr} {s : State}

lemma runFrom_letIn {lookup : String → Evaluation Value} {evaluate : Evaluator}
    {p : String × Expr} {ps : List (String × Expr)}
    (known : s.context.function? keyword = .ok (some .letForm)) :
    ((letIn keyword (p :: ps) body).step lookup evaluate).runFrom s =
      (inScope (pairBindings 1 (p :: ps)) (evaluate body)).runFrom s := by
  rw [← applyLet_pairs]
  exact runFrom_call known _

lemma opensScope_letIn {c : Context} {p : String × Expr} {ps : List (String × Expr)}
    (known : c.function? keyword = .ok (some .letForm)) :
    (letIn keyword (p :: ps) body).OpensScope c (pairBindings 1 (p :: ps)) body :=
  fun _ => .of_forall fun _ => runFrom_letIn known

end Expr

/-! ### Names that can be bound together -/

/-- Names that a `LET` may bind without getting in each other's way or that of its keyword. -/
structure Bindable (policy : CasePolicy) (keyword : String) (pairs : List (String × Expr)) :
    Prop where
  identifier : ∀ p ∈ pairs, isIdentifier p.1.toList = true
  distinct : pairs.Pairwise fun p q => policy.namesEqual p.1 q.1 = false
  apart : ∀ p ∈ pairs, policy.namesEqual p.1 keyword = false

namespace Bindable

variable {policy : CasePolicy} {keyword : String} {p : String × Expr} {ps : List (String × Expr)}

lemma head (h : Bindable policy keyword (p :: ps)) : Bindable policy keyword [p] where
  identifier := by simpa using h.identifier p (by simp)
  distinct := List.pairwise_singleton _ p
  apart := by simpa using h.apart p (by simp)

lemma tail (h : Bindable policy keyword (p :: ps)) : Bindable policy keyword ps where
  identifier q mem := h.identifier q (by simp [mem])
  distinct := (List.pairwise_cons.1 h.distinct).2
  apart q mem := h.apart q (by simp [mem])

lemma validateNames_eq_ok (h : Bindable policy keyword ps) (position : ℕ) :
    validateNames policy ((Expr.pairBindings position ps).map fun b => (b.name, b.position)) =
      .ok () := by
  rw [validateNames_eq_ok_iff, Expr.map_name_pairBindings]
  exact ⟨by simpa using h.identifier, List.pairwise_map.2 h.distinct⟩

end Bindable

/-! ### The scopes that are opened -/

namespace Context

/-- One scope within the other, with a single name to each. -/
def nestScopes (c : Context) : List (String × Expr) → Context
  | [] => c
  | p :: ps => nestScopes (c.scope.bind (Expr.pairBindings 1 [p])) ps

lemma Nests.nestScopes {b : Binding} {n f : Context} (h : (Context.binding b n).Nests True f)
    (position : ℕ) (pairs : List (String × Expr)) :
    ((Context.binding b n).nestScopes pairs).Nests True
      (f.bind (Expr.pairBindings position pairs)) := by
  induction pairs generalizing b n f position with
  | nil => exact h
  | cons p ps ih =>
    have next : (Context.binding ⟨p.1, 1, .deferred p.2 none⟩ (.scope (.binding b n))).Nests
        True (.binding ⟨p.1, position, .deferred p.2 none⟩ f) := .binding rfl rfl (h.extra trivial)
    exact ih next (position + 2)

/-- The scopes of single names nest the scope of all of them. -/
lemma nests_nestScopes (c : Context) (p : String × Expr) (ps : List (String × Expr)) :
    (c.nestScopes (p :: ps)).Nests True (c.scope.bind (Expr.pairBindings 1 (p :: ps))) :=
  Nests.nestScopes (.binding rfl rfl (.refl c.scope)) 3 ps

end Context

/-! ### The two forms -/

namespace Expr

variable {c : Context} {keyword : String} {p : String × Expr} {ps : List (String × Expr)}
  {body : Expr} {history : List Execution} {outcome : Except Fault Value} {t : State}

/-- Without room, a `LET` fails whatever its names stand for. -/
lemma answers_letIn_of_full (known : c.function? keyword = .ok (some .letForm))
    (full : maxScopeDepth ≤ c.depth) :
    (letIn keyword (p :: ps) body).Answers ⟨c, history⟩ (.error (.evaluation .nestingTooDeep))
      ⟨c, history⟩ :=
  (opensScope_letIn known).answers_of_error (Context.push_eq_error_iff.2 (.inl ⟨full, rfl⟩))

/-- With room, a `LET` answers what its body answers in its scope. -/
lemma answers_letIn_iff (known : c.function? keyword = .ok (some .letForm))
    (bindable : Bindable c.policy keyword (p :: ps)) (room : c.depth < maxScopeDepth) :
    (letIn keyword (p :: ps) body).Answers ⟨c, history⟩ outcome t ↔
      ∃ t', body.Answers ⟨c.scope.bind (pairBindings 1 (p :: ps)), history⟩ outcome t' ∧
        t = t'.within .leave := by
  have pushed : c.push (pairBindings 1 (p :: ps)) =
      .ok (c.scope.bind (pairBindings 1 (p :: ps))) :=
    Context.push_eq_ok_iff.2 ⟨room, bindable.validateNames_eq_ok 1, rfl⟩
  exact (opensScope_letIn known).answers_iff pushed

/-- The keyword keeps its meaning under names that differ from it. -/
lemma function?_bind_pair (known : c.function? keyword = .ok (some .letForm))
    (bindable : Bindable c.policy keyword (p :: ps)) :
    (c.scope.bind (pairBindings 1 [p])).function? keyword = .ok (some .letForm) := by
  have apart := bindable.apart p (by simp)
  simpa [Context.bind, pairBindings, Context.function?, Context.policy, apart] using known

lemma answers_nestedLet_of_full (known : c.function? keyword = .ok (some .letForm))
    (bindable : Bindable c.policy keyword ps) (full : maxScopeDepth < c.depth + ps.length)
    (room : c.depth ≤ maxScopeDepth) :
    ∃ t, (nestedLet keyword ps body).Answers ⟨c, history⟩ (.error (.evaluation .nestingTooDeep))
      t := by
  induction ps generalizing c with
  | nil => exact absurd full (by simpa using room)
  | cons p ps ih =>
    rcases Nat.lt_or_ge c.depth maxScopeDepth with left | none
    · have inner := ih (function?_bind_pair known bindable)
        (by simpa [Context.policy] using bindable.tail)
        (by simpa [Context.depth, Nat.add_assoc, Nat.add_comm 1] using full)
        (by simpa [Context.depth] using Nat.succ_le_of_lt left)
      obtain ⟨t, answers⟩ := inner
      exact ⟨_, (answers_letIn_iff known bindable.head left).2 ⟨t, answers, rfl⟩⟩
    · exact ⟨_, answers_letIn_of_full known none⟩

lemma answers_nestedLet_iff (known : c.function? keyword = .ok (some .letForm))
    (bindable : Bindable c.policy keyword ps) (room : c.depth + ps.length ≤ maxScopeDepth)
    (executions : List Execution) :
    (∃ t, (nestedLet keyword ps body).Answers ⟨c, history⟩ outcome t ∧ t.history = executions) ↔
      ∃ t, body.Answers ⟨c.nestScopes ps, history⟩ outcome t ∧ t.history = executions := by
  induction ps generalizing c with
  | nil => rfl
  | cons p ps ih =>
    have left : c.depth < maxScopeDepth := by
      simp only [List.length_cons] at room
      omega
    have inner := ih (function?_bind_pair known bindable)
      (by simpa [Context.policy] using bindable.tail)
      (by simpa [Context.depth, Nat.add_assoc, Nat.add_comm 1] using room)
    refine Iff.trans ?_ inner
    constructor
    · rintro ⟨t, answers, rfl⟩
      obtain ⟨t', answers', rfl⟩ := (answers_letIn_iff known bindable.head left).1 answers
      exact ⟨t', answers', rfl⟩
    · rintro ⟨t', answers', rfl⟩
      exact ⟨_, (answers_letIn_iff known bindable.head left).2 ⟨t', answers', rfl⟩, rfl⟩

/-- A `LET` with several names answers what nested ones answer, after the same executions, unless
the nested ones run out of room. -/
theorem answers_letIn_iff_nestedLet (known : c.function? keyword = .ok (some .letForm))
    (bindable : Bindable c.policy keyword (p :: ps)) (body : Expr) (history : List Execution) :
    (∃ t, (nestedLet keyword (p :: ps) body).Answers ⟨c, history⟩
      (.error (.evaluation .nestingTooDeep)) t) ∨
    ∀ outcome executions,
      (∃ t, (letIn keyword (p :: ps) body).Answers ⟨c, history⟩ outcome t ∧
        t.history = executions) ↔
      ∃ t, (nestedLet keyword (p :: ps) body).Answers ⟨c, history⟩ outcome t ∧
        t.history = executions := by
  -- Whether there is room for all the nested scopes is known before anything is evaluated.
  rcases Nat.lt_or_ge maxScopeDepth (c.depth + (p :: ps).length) with full | fits
  · rcases Nat.lt_or_ge c.depth maxScopeDepth with room | none
    · exact .inl (answers_nestedLet_of_full known bindable full (Nat.le_of_lt room))
    · exact .inl ⟨_, answers_letIn_of_full known none⟩
  have room : c.depth < maxScopeDepth := by
    simp only [List.length_cons] at fits
    omega
  have nests := c.nests_nestScopes p ps
  by_cases deep : ∃ t, (nestedLet keyword (p :: ps) body).Answers ⟨c, history⟩
      (.error (.evaluation .nestingTooDeep)) t
  · exact .inl deep
  have shallow : ¬ ∃ t, body.Answers ⟨c.nestScopes (p :: ps), history⟩
      (.error (.evaluation .nestingTooDeep)) t := by
    rintro ⟨t, answers⟩
    obtain ⟨t', answers', _⟩ :=
      (answers_nestedLet_iff known bindable fits t.history).2 ⟨t, answers, rfl⟩
    exact deep ⟨t', answers'⟩
  refine .inr fun outcome executions => ?_
  rw [answers_nestedLet_iff known bindable fits]
  constructor
  · rintro ⟨_, answers, rfl⟩
    obtain ⟨t, inner, rfl⟩ := (answers_letIn_iff known bindable room).1 answers
    rcases Simulation.nesting.answers_of_flat nests inner with failed | ⟨s, same, answers⟩
    · exact absurd failed shallow
    · exact ⟨s, answers, same⟩
  · rintro ⟨s, answers, rfl⟩
    rcases Simulation.nesting.answers_of_nested nests answers with rfl | ⟨t, same, answers⟩
    · exact absurd ⟨s, answers⟩ shallow
    · exact ⟨_, (answers_letIn_iff known bindable room).2 ⟨t, answers, rfl⟩, same.symm⟩

/-- `LET(a, NULL, b, a, b)` and `LET(a, NULL, LET(b, a, b))`. -/
theorem answers_letIn_iff_nestedLet_two :
    let c : Context := .root {}
    let p : String × Expr := ("a", .null)
    let ps : List (String × Expr) := [("b", .variable "a")]
    c.function? "LET" = .ok (some .letForm) ∧ Bindable c.policy "LET" (p :: ps) ∧
    ((∃ t, (nestedLet "LET" (p :: ps) (.variable "b")).Answers ⟨c, []⟩
      (.error (.evaluation .nestingTooDeep)) t) ∨
    ∀ outcome executions,
      (∃ t, (letIn "LET" (p :: ps) (.variable "b")).Answers ⟨c, []⟩ outcome t ∧
        t.history = executions) ↔
      ∃ t, (nestedLet "LET" (p :: ps) (.variable "b")).Answers ⟨c, []⟩ outcome t ∧
        t.history = executions) := by
  intro c p ps
  have known : c.function? "LET" = .ok (some .letForm) := rfl
  have bindable : Bindable c.policy "LET" (p :: ps) := by
    refine ⟨?_, ?_, ?_⟩
    · simp only [p, ps, List.forall_mem_cons]
      decide
    · simp only [p, ps, List.pairwise_cons, List.forall_mem_cons]
      exact ⟨⟨by decide, by simp⟩, by simp, .nil⟩
    · simp only [p, ps, List.forall_mem_cons]
      exact ⟨by decide, by decide, by simp⟩
  exact ⟨known, bindable, answers_letIn_iff_nestedLet known bindable (.variable "b") []⟩

end Expr

end Formula
