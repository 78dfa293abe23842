import Formula.Proofs.Memo.Forgetting

/-!
# Kept values do not show

A value that a binding keeps is one that its expression has in the view below it, however often it
is evaluated there. Evaluation relies on that and maintains it, so it answers what it would answer
if no value were ever kept.
-/

namespace Formula

open Evaluation Filter Simulation

/-! ### Evaluation without kept values -/

/-- Reads a binding without a look at the value it keeps, and without keeping one. -/
def Binding.readAfresh (evaluate : Evaluator) : Reading := fun b below history =>
  match b.content with
  | .ready v => (.ok v, ⟨.binding b below, history⟩)
  | .deferred e _ =>
    let run := (evaluate e).runFrom ⟨below, history⟩
    (run.1, run.2.within (.binding b))

namespace Expr

/-- The value of an expression when every look-up evaluates the binding anew, to a given depth. -/
def evaluateAfresh : (depth : ℕ) → Evaluator := evaluateBy Binding.readAfresh

/-- That the evaluation of an expression without kept values ends, with an outcome, and leaves a
state behind. -/
def AnswersAfresh (e : Expr) (s : State) (outcome : Except Fault Value) (t : State) : Prop :=
  e.AnswersBy evaluateAfresh s outcome t

lemma deepens_evaluateAfresh : Deepens evaluateAfresh := by
  refine deepens_evaluateBy fun evaluate other h b below history => ?_
  cases content : b.content with
  | ready v => exact .inr (by simp only [Binding.readAfresh, content])
  | deferred e memo =>
    simp only [Binding.readAfresh, content]
    exact (h e ⟨below, history⟩).imp_right fun eq => by rw [eq]

end Expr

/-! ### What is kept does not matter without kept values -/

lemma Simulation.forgetting.reads_afresh {excused spared : Failure → Prop}
    {left right : ℕ → Evaluator} (h : (forgetting excused spared .any .any).Tracks left right) :
    Reads excused spared .any .any (fun n => Binding.readAfresh (left n))
      (fun n => Binding.readAfresh (right n)) := by
  intro b c b₁ c₁ b₂ c₂ history₁ history₂ same₁ same₂ _ _ related
  have same := same₁.trans same₂.symm
  cases content : b₁.content with
  | ready v =>
    simp only [Binding.readAfresh, content, Binding.content_eq_ready_of_forget same content]
    exact meets_ready related same₁ same₂ trivial trivial v
  | deferred e memo =>
    obtain ⟨memo', content'⟩ := Binding.content_eq_deferred_of_forget same content
    simp only [Binding.readAfresh, content, content']
    refine (h c e trivial _ _ related).within (f := fun _ => .binding b₁)
      (g := fun _ => .binding b₂) fun _ s t _ _ met => ?_
    exact relates_binding met same₁ same₂ trivial trivial met.1 met.2.1

namespace Expr

variable {e : Expr} {c d : Context} {outcome : Except Fault Value} {t : State}
  {history : List Execution}

/-- Without kept values the answer depends neither on what is kept nor on earlier executions. -/
theorem AnswersAfresh.alike (h : e.AnswersAfresh ⟨c, history⟩ outcome t)
    (stateless : c.registry.IsStateless) (same : d.forget = c.forget)
    (history' : List Execution) :
    ∃ t', e.AnswersAfresh ⟨d, history'⟩ outcome t' ∧ t'.context.forget = c.forget := by
  have tracks := tracks_evaluateBy Binding.readAfresh Binding.readAfresh
    (S := forgetting (· = .exhausted) (fun _ => False) .any .any) rfl
    fun _ tracks c name => forgetting.follows_find (forgetting.reads_afresh tracks) c name
  rcases Tracks.answersBy tracks (w := c) (t := ⟨d, history'⟩) trivial
    ⟨Keeping.any_allows rfl, Keeping.any_allows same, stateless⟩ h with
    ⟨_, rfl, exhausted⟩ | ⟨_, ⟨⟩, _⟩ | ⟨t', related, answers⟩
  · exact absurd exhausted (mapError_fault_ne_exhausted outcome)
  · exact ⟨t', answers, related.2.1.alike⟩

/-- That an expression has a value in a context whenever it is evaluated there. -/
def HasValue (e : Expr) (c : Context) (v : Value) : Prop :=
  ∀ history, ∃ t, e.AnswersAfresh ⟨c, history⟩ (.ok v) t

lemma AnswersAfresh.hasValue {v : Value} (h : e.AnswersAfresh ⟨c, history⟩ (.ok v) t)
    (stateless : c.registry.IsStateless) (same : d.forget = c.forget) : e.HasValue d v := by
  intro history'
  obtain ⟨t', answers, _⟩ := h.alike stateless same history'
  exact ⟨t', answers⟩

end Expr

/-! ### Settled contexts -/

/-- That the value a binding keeps is the one its expression has in the view below. -/
def Binding.IsSettled (b : Binding) (below : Context) : Prop :=
  ∀ e v, b.content = .deferred e (some v) → e.HasValue below v

/-- That all kept values are the ones that the expressions have. -/
def Context.Settled (c : Context) : Prop := c.Each Binding.IsSettled

/-- A context in which nothing is kept is settled. -/
lemma Context.settled_forget (c : Context) : c.forget.Settled := by
  induction c with
  | bare => trivial
  | root r => trivial
  | layer l below ih => exact ih
  | scope parent ih => exact ih
  | binding b below ih =>
    refine ⟨?_, ih⟩
    obtain ⟨name, position, content⟩ := b
    intro e v kept
    cases content <;> simp [Binding.forget] at kept

/-- Only the values that expressions have may be kept. -/
def Keeping.settled : Keeping where
  Admits := Binding.IsSettled
  fresh := by
    rintro b below fresh e v kept
    simp only [Stock.binding, kept] at fresh
    simp at fresh
  alike := by
    rintro b below below' stateless same admits e v kept
    obtain ⟨t, answers⟩ := admits e v kept []
    exact answers.hasValue stateless same.symm

/-- A value is kept rightly when the expression has it. -/
lemma Binding.isSettled_settle {b : Binding} {e : Expr} {below below' : Context}
    {outcome : Except Failure Value} (content : b.content = .deferred e none)
    (h : ∀ v, outcome = .ok v → e.HasValue below' v) :
    (b.settle below outcome).IsSettled below' := by
  intro e' v kept
  cases outcome with
  | error failure => simp [settle, content] at kept
  | ok v' =>
    simp only [settle, content] at kept
    split at kept
    · simp only [Content.deferred.injEq, Option.some.injEq] at kept
      obtain ⟨rfl, rfl⟩ := kept
      exact h v' rfl
    · simp [content] at kept

/-! ### Transparency -/

/-- Values that are kept rightly make no difference to what is found without them. -/
lemma Simulation.forgetting.reads_settled {excused spared : Failure → Prop}
    {left right : ℕ → Evaluator} (approaches : Approaches Expr.evaluateAfresh excused left)
    (h : (forgetting excused spared .any .settled).Tracks left right) :
    Reads excused spared .any .settled (fun n => Binding.readAfresh (left n))
      (fun n => Binding.read (right n)) := by
  intro b c b₁ c₁ b₂ c₂ history₁ history₂ same₁ same₂ _ settled related
  have same := same₁.trans same₂.symm
  cases content : b₁.content with
  | ready v =>
    simp only [Binding.readAfresh, Binding.read, content,
      Binding.content_eq_ready_of_forget same content]
    exact meets_ready related same₁ same₂ trivial settled v
  | deferred e memo =>
    obtain ⟨memo', content'⟩ := Binding.content_eq_deferred_of_forget same content
    cases memo' with
    | none =>
      simp only [Binding.readAfresh, Binding.read, content, content']
      refine (h c e trivial _ _ related).within (f := fun _ => .binding b₁)
        (g := fun outcome => .binding (b₂.settle c₂ outcome)) fun outcome s t hl _ met => ?_
      refine relates_binding met same₁ (by simpa using same₂) trivial ?_ met.1 met.2.1
      refine Binding.isSettled_settle content' ?_
      rintro v rfl
      have answers : e.AnswersAfresh ⟨c₁, history₁⟩ (.ok v) s := approaches.sound hl
      exact answers.hasValue (related.1.stateless related.2.2)
        (met.2.1.alike.trans related.1.alike.symm)
    | some v =>
      simp only [Binding.readAfresh, Binding.read, content, content']
      -- One side looks the value up, the other one finds it again by evaluating.
      obtain ⟨_, answers⟩ := settled e v content' history₁
      obtain ⟨s, answers, alike⟩ := answers.alike (related.2.1.stateless related.2.2)
        (related.1.alike.trans related.2.1.alike.symm) history₁
      have left : Keeping.any.Allows c s.context :=
        Keeping.any_allows (alike.trans related.2.1.alike)
      rcases approaches.complete answers with excused | hl
      · exact .inl excused
      refine .inr (.inr ⟨.ok v, s.within (.binding b₁), ⟨.binding b₂ c₂, history₂⟩, ?_,
        fun _ _ => trivial, ?_, .of_forall fun _ => rfl⟩)
      · exact relates_binding (t := ⟨c₂, history₂⟩) ⟨left, related.2⟩ same₁ same₂ trivial settled
          left related.2.1
      · filter_upwards [hl] with n hn
        rw [hn]

namespace Expr

section

variable {c : Context} (stateless : c.registry.IsStateless) (settled : c.Settled) {e : Expr}
  {history : List Execution} {outcome : Except Fault Value} {t : State}
include stateless settled

lemma AnswersAfresh.answers (h : e.AnswersAfresh ⟨c, history⟩ outcome t) :
    ∃ t', e.Answers ⟨c, history⟩ outcome t' := by
  have kept : Keeping.settled.Allows c c := ⟨rfl, settled⟩
  have tracks := tracks_evaluateBy Binding.readAfresh Binding.read
    (S := forgetting (· = .exhausted) (fun _ => False) .any .settled) rfl fun depth tracks c name =>
      forgetting.follows_find
        (forgetting.reads_settled (deepens_evaluateAfresh.approaches_depth depth) tracks) c name
  rcases Tracks.answersBy tracks (w := c) (t := ⟨c, history⟩) trivial
    ⟨Keeping.any_allows rfl, kept, stateless⟩ h with
    ⟨_, rfl, exhausted⟩ | ⟨_, ⟨⟩, _⟩ | ⟨t', _, answers⟩
  · exact absurd exhausted (mapError_fault_ne_exhausted outcome)
  · exact ⟨t', by rwa [Answers, evaluate_eq_evaluateBy]⟩

lemma Answers.afresh (h : e.Answers ⟨c, history⟩ outcome t) :
    (t.context.Settled ∧ t.context.forget = c.forget) ∧
      ∃ t', e.AnswersAfresh ⟨c, history⟩ outcome t' := by
  have kept : Keeping.settled.Allows c c := ⟨rfl, settled⟩
  have tracks := tracks_evaluateBy Binding.read Binding.readAfresh
    (S := (forgetting (fun _ => False) (· = .exhausted) .any .settled).symm) rfl
    fun _ tracks c name =>
      (forgetting.follows_find
        (forgetting.reads_settled deepens_evaluateAfresh.approaches_self tracks.symm) c name).symm
  rw [Answers, evaluate_eq_evaluateBy] at h
  rcases Tracks.answersBy tracks (w := c) (t := ⟨c, history⟩) trivial
    ⟨Keeping.any_allows rfl, kept, stateless⟩ h with
    ⟨_, rfl, exhausted⟩ | ⟨_, ⟨⟩, _⟩ | ⟨t', related, answers⟩
  · exact absurd exhausted (mapError_fault_ne_exhausted outcome)
  · exact ⟨⟨related.2.1.each, related.2.1.alike⟩, t', answers⟩

end

/-- Over stateless functions, and whatever is kept rightly, an expression answers what it answers
without kept values, and what is kept afterwards is kept rightly again. -/
theorem answers_iff_answersAfresh {c : Context} (stateless : c.registry.IsStateless)
    (settled : c.Settled) (e : Expr) (history : List Execution) :
    (∀ outcome, (∃ t, e.Answers ⟨c, history⟩ outcome t) ↔
      ∃ t, e.AnswersAfresh ⟨c, history⟩ outcome t) ∧
    (∀ outcome t, e.Answers ⟨c, history⟩ outcome t →
      t.context.Settled ∧ t.context.forget = c.forget) ∧
    c.forget.Settled := by
  refine ⟨fun outcome => ⟨?_, ?_⟩, fun outcome t h => (h.afresh stateless settled).1,
    c.settled_forget⟩
  · rintro ⟨t, h⟩
    exact (h.afresh stateless settled).2
  · rintro ⟨t, h⟩
    exact h.answers stateless settled

/-- A name whose value is kept: the expression it is bound to has that value. -/
theorem answers_iff_answersAfresh_kept :
    let c : Context := .binding ⟨"x", 1, .deferred .null (some .null)⟩ (.scope (.root {}))
    c.registry.IsStateless ∧ c.Settled ∧
    (∀ outcome, (∃ t, (Expr.variable "x").Answers ⟨c, []⟩ outcome t) ↔
      ∃ t, (Expr.variable "x").AnswersAfresh ⟨c, []⟩ outcome t) ∧
    (∀ outcome t, (Expr.variable "x").Answers ⟨c, []⟩ outcome t →
      t.context.Settled ∧ t.context.forget = c.forget) ∧
    c.forget.Settled := by
  intro c
  have stateless : c.registry.IsStateless := Registry.isStateless_builtins
  have settled : c.Settled := by
    refine ⟨?_, trivial⟩
    rintro e v ⟨⟩ history
    exact ⟨_, 1, rfl⟩
  exact ⟨stateless, settled, answers_iff_answersAfresh stateless settled (.variable "x") []⟩

end Expr

end Formula
