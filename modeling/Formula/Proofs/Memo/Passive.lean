import Formula.Proofs.Memo.Forgetting

/-!
# Evaluation that keeps nothing

What a binding keeps saves work and nothing else. To say so of every context, whatever it keeps
already, evaluation is compared with one that makes use of kept values and keeps none: over
stateless functions this one leaves the context as it is, so an expression has the same outcome
whenever it is evaluated. A binding may then be given the value of its expression in advance. A
context in which some bindings are serves for the one in which they are not, and evaluation does not
tell them apart.
-/

namespace Formula

open Evaluation Filter Simulation

/-! ### Evaluation without keeping -/

/-- Reads a binding and leaves it as it is. -/
def Binding.readPassively : Evaluator → Reading := Binding.readWith fun b _ _ => b

namespace Expr

/-- The value of an expression when look-ups keep nothing, to a given depth. -/
def evaluatePassively : (depth : ℕ) → Evaluator := evaluateBy Binding.readPassively

/-- That the evaluation of an expression ends when look-ups keep nothing, with an outcome, and
leaves a state behind. -/
def AnswersPassively (e : Expr) (s : State) (outcome : Except Fault Value) (t : State) : Prop :=
  e.AnswersBy evaluatePassively s outcome t

lemma deepens_evaluatePassively : Deepens evaluatePassively :=
  deepens_evaluateBy fun _ _ h => h.readWith fun b _ _ => b

/-- That an expression has a value in a context, whatever was executed before, and that the context
stays as it is. -/
def HasPassively (e : Expr) (f : Context) (v : Value) : Prop :=
  ∀ history, ∃ t, t.context = f ∧ e.AnswersPassively ⟨f, history⟩ (.ok v) t

end Expr

/-! ### Values in advance -/

/-- That a binding holds the same as another one, or the value of the expression that the other one
holds. -/
structure Binding.Serves (f : Context) (b b' : Binding) : Prop where
  name : b.name = b'.name
  content : b.content = b'.content ∨ ∃ e v, b'.content = .deferred e none ∧ e.HasPassively f v ∧
    (b.content = .ready v ∨ b.content = .deferred e (some v))

/-- That a context differs from another one in the positions of names and in values of expressions
that are held in advance. -/
inductive Context.Serves : Context → Context → Prop
  | bare : Serves .bare .bare
  | root (r : Root) : Serves (.root r) (.root r)
  | layer (l : Layer) {d f : Context} (below : Serves d f) : Serves (.layer l d) (.layer l f)
  | scope {d f : Context} (parent : Serves d f) : Serves (.scope d) (.scope f)
  | binding {b b' : Binding} {d f : Context} (serves : b.Serves f b') (below : Serves d f) :
      Serves (.binding b d) (.binding b' f)

namespace Context.Serves

variable {d f : Context}

@[refl]
lemma refl (c : Context) : c.Serves c := by
  induction c with
  | bare => exact .bare
  | root r => exact .root r
  | layer l below ih => exact .layer l ih
  | scope parent ih => exact .scope ih
  | binding b below ih => exact .binding ⟨rfl, .inl rfl⟩ ih

lemma bind (h : d.Serves f) (bindings : List Binding) :
    (d.bind bindings).Serves (f.bind bindings) := by
  induction bindings generalizing d f with
  | nil => exact h
  | cons b bs ih => exact ih (.binding ⟨rfl, .inl rfl⟩ h)

lemma leave (h : d.Serves f) : d.leave.Serves f.leave := by
  induction h with
  | bare => exact .bare
  | root r => exact .root r
  | layer l below _ => exact .layer l below
  | scope parent _ => exact parent
  | binding _ _ ih => exact ih

lemma depth_eq (h : d.Serves f) : d.depth = f.depth := by
  induction h with
  | bare | root => rfl
  | layer _ _ ih => exact ih
  | scope _ ih => simp only [depth, ih]
  | binding _ _ ih => exact ih

lemma sameCapabilities (h : d.Serves f) : d.SameCapabilities f := by
  induction h with
  | bare | root => rfl
  | layer l _ ih => exact ih.layer l
  | scope _ ih => exact ih.scope
  | binding serves _ ih => exact ih.binding serves.name

lemma policy_eq (h : d.Serves f) : d.policy = f.policy := h.sameCapabilities.policy

end Context.Serves

/-! ### The simulation -/

/-- States of which the first one holds values in advance, while nothing is kept in the second one.
A world is the context of the second one. -/
def Simulation.serving (excused spared : Failure → Prop) : Simulation Context where
  toStock := .all
  Relates f s t := s.context.Serves f ∧ t.context = f ∧ f.registry.IsStateless
  excused := excused
  spared := spared
  Opens f bindings f' := f' = f.scope.bind bindings
  Knows f := f.IsStateless
  capabilities := by
    rintro f s t ⟨serves, rfl, _⟩
    exact serves.sameCapabilities
  push := by
    rintro f s t bindings ⟨serves, rfl, stateless⟩ _
    refine .inr (.inr ?_)
    rcases Context.push_alike serves.depth_eq serves.policy_eq bindings with
      failed | ⟨pushed, pushed'⟩
    · exact .inl failed
    · refine .inr ⟨_, _, _, pushed, pushed', rfl, serves.scope.bind bindings, rfl, ?_⟩
      simpa [Context.registry] using stateless
  leave := by
    rintro f _ s t bindings rfl ⟨serves, same, stateless⟩
    refine ⟨by simpa [Context.leave] using serves.leave, ?_, ?_⟩
    · simp [same, Context.leave]
    · simpa [Context.registry] using stateless
  execute values _ stateless := stateless _ _ values
  record _ related := related
  executed _ _ _ := trivial
  known := by
    rintro f s t name g ⟨serves, rfl, stateless⟩ found
    rw [serves.sameCapabilities.function] at found
    exact stateless name g (Context.get?_of_function? found)
  keeps _ := Stock.function_all _
  convert _ _ _ := trivial
  parse _ _ _ := trivial

namespace Simulation.serving

variable {excused spared : Failure → Prop} {left right : ℕ → Evaluator}

/-- What becomes of a binding, once its expression was evaluated, serves for it. -/
def Settles (right : ℕ → Evaluator) (after : Binding → Context → Except Failure Value → Binding) :
    Prop :=
  ∀ ⦃b b' : Binding⦄ ⦃d f : Context⦄ ⦃e : Expr⦄ ⦃history : List Execution⦄ ⦃t : State⦄
    ⦃outcome : Except Failure Value⦄, f.registry.IsStateless → b.Serves f b' →
    b.content = .deferred e none → t.context = f →
    (∀ᶠ n in atTop, (right n e).runFrom ⟨f, history⟩ = (outcome, t)) →
    (after b d outcome).Serves f b'

/-- A binding is read alike whether or not it holds the value in advance. -/
lemma meets_read {after : Binding → Context → Except Failure Value → Binding}
    (h : (serving excused spared).Tracks left right)
    (approaches : Approaches Expr.evaluatePassively spared right) (settles : Settles right after)
    {b b' : Binding} {d f : Context} (serves : b.Serves f b') (below : d.Serves f)
    (stateless : f.registry.IsStateless) (history history' : List Execution) :
    (serving excused spared).Meets (.binding b' f)
      (fun n => b.readWith after (left n) d history)
      (fun n => b'.readPassively (right n) f history') (fun _ => True) := by
  have both : (Context.binding b d).Serves (.binding b' f) := .binding serves below
  rcases serves.content with same | ⟨e, v, deferred, has, held⟩
  · refine meets_readWith same ⟨both, rfl, stateless⟩ fun e content => ?_
    refine (h f e trivial ⟨d, history⟩ ⟨f, history'⟩ ⟨below, rfl, stateless⟩).within
      (f := fun outcome => .binding (after b d outcome)) (g := fun _ => .binding b') ?_
    rintro outcome s t _ hr ⟨below', same', _⟩
    refine ⟨.binding ?_ below', congrArg _ same', stateless⟩
    exact settles stateless serves (same.trans content) same' hr
  · -- One side holds the value, the other one finds it by evaluating.
    have run : ∀ evaluate, b.readWith after evaluate d history =
        (.ok v, ⟨.binding b d, history⟩) := by
      intro evaluate
      rcases held with held | held <;> simp only [Binding.readWith, held]
    obtain ⟨t, same, answers⟩ := has history'
    simp only [run]
    simp only [Binding.readPassively, Binding.readWith, deferred]
    rcases approaches.complete answers with spared | hr
    · exact .inr (.inl spared)
    refine .inr (.inr ⟨.ok v, ⟨.binding b d, history⟩, t.within (.binding b'),
      ⟨both, congrArg _ same, stateless⟩, fun _ _ => trivial, .of_forall fun _ => rfl, ?_⟩)
    filter_upwards [hr] with n hn
    rw [hn]

/-- Names are found alike, too. -/
lemma follows_find {after : Binding → Context → Except Failure Value → Binding}
    (h : (serving excused spared).Tracks left right)
    (approaches : Approaches Expr.evaluatePassively spared right) (settles : Settles right after)
    (f : Context) (name : String) :
    (serving excused spared).Follows f (fun n => find (Binding.readWith after (left n)) name)
      (fun n => find (Binding.readPassively (right n)) name) (fun _ => True) := by
  rintro ⟨d, history⟩ ⟨g, history'⟩ ⟨(serves : d.Serves f), (rfl : g = f), stateless⟩
  change (serving excused spared).Meets g
    (fun n => d.find (Binding.readWith after (left n)) name history)
    (fun n => g.find (Binding.readPassively (right n)) name history') fun _ => True
  induction serves with
  | bare => exact meets_const ⟨.bare, rfl, stateless⟩ fun _ _ => trivial
  | root r => exact meets_const ⟨.root r, rfl, stateless⟩ fun _ _ => trivial
  | layer l _ ih =>
    refine (ih stateless).within (f := fun _ => .layer l) (g := fun _ => .layer l) ?_
    rintro _ s t _ _ ⟨serves, same, stateless⟩
    exact ⟨.layer l serves, congrArg _ same, stateless⟩
  | scope _ ih =>
    refine (ih stateless).within (f := fun _ => .scope) (g := fun _ => .scope) ?_
    rintro _ s t _ _ ⟨serves, same, stateless⟩
    exact ⟨.scope serves, congrArg _ same, stateless⟩
  | @binding b b' d f serves below ih =>
    simp only [Context.find, serves.name, below.policy_eq]
    split
    · exact meets_read h approaches settles serves below stateless history history'
    · refine (ih stateless).within (f := fun _ => .binding b) (g := fun _ => .binding b') ?_
      rintro _ s t _ _ ⟨serves', same, stateless⟩
      exact ⟨.binding serves serves', congrArg _ same, stateless⟩

/-- A binding that is left as it is goes on serving. -/
lemma settles_passively : Settles right fun b _ _ => b := by
  intro _ _ _ _ _ _ _ _ _ serves _ _ _
  exact serves

end Simulation.serving

namespace Expr

variable {e : Expr} {d f : Context} {outcome : Except Fault Value} {s t : State} {v : Value}
  {history history' : List Execution}

/-- When look-ups keep nothing, the outcome depends neither on values held in advance nor on earlier
executions, and the context stays as it is. -/
lemma AnswersPassively.serves (h : e.AnswersPassively ⟨d, history⟩ outcome t) (serves : d.Serves f)
    (stateless : f.registry.IsStateless) (history' : List Execution) :
    ∃ t', t'.context = f ∧ e.AnswersPassively ⟨f, history'⟩ outcome t' := by
  have tracks := tracks_evaluateBy Binding.readPassively Binding.readPassively
    (S := serving (· = .exhausted) fun _ => False) rfl fun _ tracks f name =>
      serving.follows_find tracks deepens_evaluatePassively.approaches_self
        serving.settles_passively f name
  rcases Tracks.answersBy tracks (w := f) (t := ⟨f, history'⟩) trivial ⟨serves, rfl, stateless⟩ h
    with ⟨_, rfl, exhausted⟩ | ⟨_, ⟨⟩, _⟩ | ⟨t', related, answers⟩
  · exact absurd exhausted (mapError_fault_ne_exhausted outcome)
  · exact ⟨t', related.2.1, answers⟩

lemma AnswersPassively.hasPassively (h : e.AnswersPassively ⟨f, history⟩ (.ok v) t)
    (stateless : f.registry.IsStateless) : e.HasPassively f v :=
  fun history' => h.serves (.refl f) stateless history'

end Expr

/-- A binding that keeps the value of its expression goes on serving. -/
lemma Simulation.serving.settles_settle {excused : Failure → Prop} {right : ℕ → Evaluator}
    (approaches : Approaches Expr.evaluatePassively excused right) :
    Settles right Binding.settle := by
  intro b b' d f e history t outcome stateless serves content same run
  cases outcome with
  | error failure => simpa only [Binding.settle, content] using serves
  | ok v =>
    simp only [Binding.settle, content]
    split
    · have answers : e.AnswersPassively ⟨f, history⟩ (.ok v) t := approaches.sound run
      refine ⟨serves.name, .inr ⟨e, v, ?_, answers.hasPassively stateless, .inr rfl⟩⟩
      rcases serves.content with same | ⟨_, _, _, _, held⟩
      · rw [← same, content]
      · rcases held with held | held <;> rw [content] at held <;> cases held
    · exact serves

namespace Expr

variable {e : Expr} {d f : Context} {outcome : Except Fault Value} {s t : State} {v : Value}
  {history : List Execution}

lemma Answers.passively (h : e.Answers ⟨d, history⟩ outcome t) (serves : d.Serves f)
    (stateless : f.registry.IsStateless) (history' : List Execution) :
    ∃ t', t'.context = f ∧ e.AnswersPassively ⟨f, history'⟩ outcome t' := by
  have approaches := deepens_evaluatePassively.approaches_self
  have tracks := tracks_evaluateBy Binding.read Binding.readPassively
    (S := serving (· = .exhausted) fun _ => False) rfl fun _ tracks f name =>
      serving.follows_find tracks approaches (serving.settles_settle approaches) f name
  rw [Answers, evaluate_eq_evaluateBy] at h
  rcases Tracks.answersBy tracks (w := f) (t := ⟨f, history'⟩) trivial ⟨serves, rfl, stateless⟩ h
    with ⟨_, rfl, exhausted⟩ | ⟨_, ⟨⟩, _⟩ | ⟨t', related, answers⟩
  · exact absurd exhausted (mapError_fault_ne_exhausted outcome)
  · exact ⟨t', related.2.1, answers⟩

lemma AnswersPassively.answers (h : e.AnswersPassively ⟨f, history⟩ outcome t)
    (serves : d.Serves f) (stateless : f.registry.IsStateless) (history' : List Execution) :
    ∃ t', e.Answers ⟨d, history'⟩ outcome t' := by
  have tracks := tracks_evaluateBy Binding.readPassively Binding.read
    (S := (serving (fun _ => False) (· = .exhausted)).symm) rfl fun depth tracks f name =>
      have approaches := deepens_evaluatePassively.approaches_depth depth
      (serving.follows_find tracks.symm approaches (serving.settles_settle approaches) f name).symm
  rcases Tracks.answersBy tracks (w := f) (t := ⟨d, history'⟩) trivial ⟨serves, rfl, stateless⟩ h
    with ⟨_, rfl, exhausted⟩ | ⟨_, ⟨⟩, _⟩ | ⟨t', _, answers⟩
  · exact absurd exhausted (mapError_fault_ne_exhausted outcome)
  · exact ⟨t', by rwa [Answers, evaluate_eq_evaluateBy]⟩

/-- Over stateless functions, values that are held in advance and values that are kept do not show:
an expression has the outcome that it has when nothing is kept. -/
theorem answers_iff_answersPassively (serves : d.Serves f) (stateless : f.registry.IsStateless)
    (history history' : List Execution) :
    (∃ t, e.Answers ⟨d, history⟩ outcome t) ↔
      ∃ t, e.AnswersPassively ⟨f, history'⟩ outcome t := by
  constructor
  · rintro ⟨t, h⟩
    obtain ⟨t', -, answers⟩ := h.passively serves stateless history'
    exact ⟨t', answers⟩
  · rintro ⟨t, h⟩
    exact h.answers serves stateless history

end Expr

end Formula
