import Formula.Proofs.Let.Eager

/-!
# Scopes and layers that say nothing

A scope without names and a layer that changes nothing are asked for everything that is asked of a
context, and pass all of it on to the context below. Neither shows in what an expression answers or
in what it executes. The scope takes up room, though, which an expression that opens many more may
miss; the layer takes up none.
-/

namespace Formula.Expr

variable {c : Context} {keyword : String} {e : Expr} {history : List Execution}

/-- A lambda without parameters, called, opens a scope without names. -/
lemma opensScope_invokeLambda_nil (known : c.function? keyword = .ok (some .lambdaForm)) :
    (invokeLambda keyword [] e []).OpensScope c [] e :=
  opensScope_invokeLambda known (validateNames_eq_ok_iff.2 ⟨by simp, .nil⟩) rfl

/-- A call of a lambda without parameters answers what its body answers, after the same executions,
unless it has no room for its scopes. -/
lemma full_or_answers_invokeLambda_nil (known : c.function? keyword = .ok (some .lambdaForm)) :
    (∃ t, (invokeLambda keyword [] e []).Answers ⟨c, history⟩
      (.error (.evaluation .nestingTooDeep)) t) ∨
    ∀ outcome executions,
      (∃ t, (invokeLambda keyword [] e []).Answers ⟨c, history⟩ outcome t ∧
        t.history = executions) ↔
      ∃ t, e.Answers ⟨c, history⟩ outcome t ∧ t.history = executions := by
  have opens := opensScope_invokeLambda_nil (e := e) known
  rcases Nat.lt_or_ge c.depth maxScopeDepth with room | full
  · have pushed : c.push [] = .ok c.scope := Context.push_eq_ok_iff.2 ⟨room, rfl, rfl⟩
    have inner (outcome : Except Fault Value) (executions : List Execution) :
        (∃ t, (invokeLambda keyword [] e []).Answers ⟨c, history⟩ outcome t ∧
          t.history = executions) ↔
        ∃ t, e.Answers ⟨c.scope, history⟩ outcome t ∧ t.history = executions := by
      simp only [opens.answers_iff pushed]
      constructor
      · rintro ⟨_, ⟨t, answers, rfl⟩, same⟩
        exact ⟨t, answers, same⟩
      · rintro ⟨t, answers, same⟩
        exact ⟨_, ⟨t, answers, rfl⟩, same⟩
    have nests : c.scope.Nests True c := .extra trivial (.refl c)
    rcases Simulation.nesting.full_or_answers_iff nests e history with ⟨-, s, failed⟩ | alike
    · obtain ⟨t, answers, -⟩ := (inner _ s.history).2 ⟨s, failed, rfl⟩
      exact .inl ⟨t, answers⟩
    · exact .inr fun outcome executions => (inner outcome executions).trans (alike _ _)
  · exact .inl ⟨_, opens.answers_of_error (Context.push_eq_error_iff.2 (.inl ⟨full, rfl⟩))⟩

/-- **A scope that binds nothing does not show**, and neither does a layer that changes nothing: in
every context in which the keyword makes a lambda, the call of a lambda without parameters answers
what its body answers, after the same executions, unless it ends for want of room; and in a layer
that changes nothing every expression answers what it answers below, after the same executions,
without exception. -/
theorem answers_iff_of_nothing_bound (c : Context) (e : Expr) (history : List Execution) :
    (∀ keyword, c.function? keyword = .ok (some .lambdaForm) →
      (∃ t, (Expr.invoke (.call keyword [e]) []).Answers ⟨c, history⟩
        (.error (.evaluation .nestingTooDeep)) t) ∨
      ∀ outcome executions,
        (∃ t, (Expr.invoke (.call keyword [e]) []).Answers ⟨c, history⟩ outcome t ∧
          t.history = executions) ↔
        ∃ t, e.Answers ⟨c, history⟩ outcome t ∧ t.history = executions) ∧
    ∀ outcome executions,
      (∃ t, e.Answers ⟨.layer {} c, history⟩ outcome t ∧ t.history = executions) ↔
      ∃ t, e.Answers ⟨c, history⟩ outcome t ∧ t.history = executions := by
  refine ⟨fun keyword known => full_or_answers_invokeLambda_nil known, ?_⟩
  have nests : (Context.layer {} c).Nests False c := .idle (.refl c)
  rcases Simulation.nesting.full_or_answers_iff nests e history with ⟨⟨⟩, -⟩ | alike
  exact alike

/-- `LAMBDA(a)()` and `a`, where `a` is bound to an expression in the scope around it. -/
theorem answers_iff_of_nothing_bound_name :
    let c : Context := .binding ⟨"a", 1, .deferred .null none⟩ (.scope (.root {}))
    let e : Expr := .variable "a"
    c.function? "LAMBDA" = .ok (some .lambdaForm) ∧
    (∃ t, (Expr.invoke (.call "LAMBDA" [e]) []).Answers ⟨c, []⟩ (.ok .null) t ∧ t.history = []) ∧
    ∃ t, e.Answers ⟨.layer {} c, []⟩ (.ok .null) t ∧ t.history = [] := by
  intro c e
  have known : c.function? "LAMBDA" = .ok (some .lambdaForm) := rfl
  have name : ∃ t, e.Answers ⟨c, []⟩ (.ok .null) t ∧ t.history = [] := ⟨_, ⟨2, rfl⟩, rfl⟩
  obtain ⟨scope, layer⟩ := answers_iff_of_nothing_bound c e []
  refine ⟨known, ?_, (layer _ _).2 name⟩
  rcases scope "LAMBDA" known with ⟨t, full⟩ | alike
  · obtain ⟨_, room⟩ : ∃ t, (Expr.invoke (.call "LAMBDA" [e]) []).Answers ⟨c, []⟩ (.ok .null) t :=
      ⟨_, 4, rfl⟩
    exact absurd (full.unique room).1 (by simp)
  · exact (alike _ _).2 name

end Formula.Expr
