import Formula.Proofs.Evaluation.Course
import Formula.Proofs.Purity.Verdict
import Mathlib.Data.Nat.Notation

/-!
# What evaluation does to a context

Evaluation changes a context in one way only: a deferred binding that keeps no value gets one, if
its expression is pure in the view below and was evaluated there to that value. `Grows` says so of
two contexts. That every evaluation lets its context grow is shown of the pieces that the rules of
the language are put together from, and of reading a binding.
-/

namespace Formula

open Evaluation

/-! ### Growing contexts -/

/-- That an expression is pure in a view and was evaluated there to a value, to some depth and after
some executions, whatever the view kept at that time. -/
structure Context.Yields (below : Context) (e : Expr) (v : Value) : Prop where
  pure : below.isPure e = .ok true
  evaluated : ∃ depth view history, view.forget = below.forget ∧
    ((Expr.evaluate depth e).runFrom ⟨view, history⟩).1 = .ok v

lemma Context.Yields.alike {c d : Context} {e : Expr} {v : Value} (h : d.Yields e v)
    (alike : d.forget = c.forget) : c.Yields e v where
  pure := by rw [← Context.isPure_eq_of_forget alike, h.pure]
  evaluated := by
    obtain ⟨depth, view, history, same, run⟩ := h.evaluated
    exact ⟨depth, view, history, same.trans alike, run⟩

/-- That a context became another one by deferred bindings getting values. -/
inductive Context.Grows : Context → Context → Prop
  | bare : Grows .bare .bare
  | root (r : Root) : Grows (.root r) (.root r)
  | layer (l : Layer) {c d : Context} (below : Grows c d) : Grows (.layer l c) (.layer l d)
  | scope {c d : Context} (parent : Grows c d) : Grows (.scope c) (.scope d)
  | same (b : Binding) {c d : Context} (below : Grows c d) : Grows (.binding b c) (.binding b d)
  | filled {b : Binding} {e : Expr} {v : Value} {c d : Context} (below : Grows c d)
      (content : b.content = .deferred e none) (yields : c.Yields e v) :
      Grows (.binding b c) (.binding { b with content := .deferred e (some v) } d)

namespace Context.Grows

variable {b c d : Context}

lemma refl (c : Context) : c.Grows c := by
  induction c with
  | bare => exact .bare
  | root r => exact .root r
  | layer l below ih => exact .layer l ih
  | scope parent ih => exact .scope ih
  | binding b below ih => exact .same b ih

lemma alike (h : c.Grows d) : d.forget = c.forget := by
  induction h with
  | bare => rfl
  | root r => rfl
  | layer l _ ih => simp only [forget, ih]
  | scope _ ih => simp only [forget, ih]
  | same b _ ih => simp only [forget, ih]
  | filled _ content _ ih => simp [forget, ih, Binding.forget, content]

lemma trans (h : b.Grows c) (h' : c.Grows d) : b.Grows d := by
  induction h generalizing d with
  | bare => exact h'
  | root r => exact h'
  | layer l _ ih =>
    obtain - | - | ⟨_, below⟩ := h'
    exact .layer l (ih below)
  | scope _ ih =>
    cases h' with
    | scope parent => exact .scope (ih parent)
  | same b below ih =>
    cases h' with
    | same _ below' => exact .same b (ih below')
    | filled below' content yields => exact .filled (ih below') content (yields.alike below.alike)
  | filled below content yields ih =>
    cases h' with
    | same _ below' => exact .filled (ih below') content yields
    | filled _ content' _ => cases content'

lemma leave (h : c.Grows d) : c.leave.Grows d.leave := by
  induction h with
  | bare => exact .bare
  | root r => exact .root r
  | layer l below _ => exact .layer l below
  | scope parent _ => exact parent
  | same b _ ih => exact ih
  | filled _ _ _ ih => exact ih

/-- A deferred binding stays as it is, unless it keeps no value and gets one. -/
lemma of_deferred {b : Binding} {below : Context} {e : Expr} {memo : Option Value}
    (h : (Context.binding b below).Grows d) (content : b.content = .deferred e memo) :
    (∃ below', d = .binding b below') ∨
      memo = none ∧ ∃ v below', below.Yields e v ∧
        d = .binding { b with content := .deferred e (some v) } below' := by
  cases h with
  | same _ _ => exact .inl ⟨_, rfl⟩
  | filled _ content' yields =>
    rw [content] at content'
    cases content'
    exact .inr ⟨rfl, _, _, yields, rfl⟩

end Context.Grows

/-! ### Evaluation lets contexts grow -/

/-- Every evaluation lets its context grow, from every state and over everything there is. -/
def Course.growth : Course where
  toStock := .all
  Starts _ := True
  Leads s t := s.context.Grows t.context
  Knows _ := True
  weighed _ := True
  refl s := .refl s.context
  trans := .trans
  starts _ _ := trivial
  opens _ _ _ := trivial
  leaves pushed grows := by
    have left := grows.leave
    rwa [Context.leave_of_push pushed] at left
  executes {s _ _ _} _ _ _ := .refl s.context
  executed _ _ _ := trivial
  known _ _ _ := trivial
  keeps _ := Stock.function_all _
  convert _ _ _ := trivial
  parse _ _ _ := trivial

/-- That an evaluator lets contexts grow. -/
abbrev Evaluator.Grows (evaluate : Evaluator) : Prop :=
  ∀ e, Course.growth.Runs (evaluate e) fun _ => True

section

variable {depth : ℕ}

/-- A value that is kept is one that the expression was evaluated to. -/
lemma grows_read (grows : Evaluator.Grows (Expr.evaluate depth)) (b : Binding) (below : Context)
    (history : List Execution) :
    (Context.binding b below).Grows
      (b.read (Expr.evaluate depth) below history).2.context := by
  unfold Binding.read
  split
  · exact .refl _
  · exact .refl _
  · next e content =>
    have below_grows := (grows e ⟨below, history⟩ trivial).1
    simp only [State.within_context]
    generalize run : (Expr.evaluate depth e).runFrom ⟨below, history⟩ = result at below_grows ⊢
    obtain ⟨outcome, t⟩ := result
    cases outcome with
    | error failure =>
      have unsettled : b.settle below (.error failure) = b := by simp [Binding.settle, content]
      rw [unsettled]
      exact .same b below_grows
    | ok v =>
      simp only [Binding.settle, content]
      split
      · next pure =>
        refine .filled below_grows content ⟨Context.eq_ok_true_of_verdict pure, ?_⟩
        exact ⟨depth, below, history, rfl, congrArg Prod.fst run⟩
      · exact .same b below_grows

lemma grows_lookup (grows : Evaluator.Grows (Expr.evaluate depth)) (name : String) :
    Course.growth.Runs (Evaluation.lookup (Expr.evaluate depth) name) fun _ => True := by
  rintro ⟨c, history⟩ -
  refine ⟨?_, fun _ _ => trivial⟩
  rw [Evaluation.lookup_eq_find, Evaluation.runFrom_find]
  change c.Grows (c.find (Binding.read (Expr.evaluate depth)) name history).2.context
  induction c with
  | bare => exact .refl _
  | root r => exact .refl _
  | layer l below ih => exact .layer l ih
  | scope parent ih => exact .scope ih
  | binding b below ih =>
    simp only [Context.find]
    split
    · exact grows_read grows b below history
    · exact .same b ih

end

/-- Whatever is evaluated, and however deep it is followed, the context can only grow. -/
theorem Expr.grows_evaluate (depth : ℕ) : Evaluator.Grows (evaluate depth) := by
  induction depth with
  | zero => exact fun e s _ => ⟨.refl _, nofun⟩
  | succ depth ih =>
    intro e
    rw [evaluate, ← stepWeighing_self]
    exact Course.runs_stepWeighing trivial (fun name _ => grows_lookup ih name)
      (fun p _ => ih p) fun _ _ p _ => ih p

end Formula
