import Formula.Proofs.Evaluation.Course
import Formula.Proofs.Purity.Verdict
import Mathlib.Data.Nat.Notation

/-!
# What pure expressions execute

An expression that is judged pure executes pure functions only. Its parts are judged in the same
context, also those that are evaluated in the scopes it opens; a name that such a scope binds stands
for an expression judged there as well. A name of the judging context leads to a view in which its
expression is judged anew, and evaluated to less depth. What a criterion leads to is not judged at
all, so it is a hypothesis here what the expressions of criteria execute.
-/

namespace Formula

open Evaluation

/-! ### Pure runs -/

/-- That a run left a context of the same shape and executed pure functions only. -/
structure State.PurelyTo (s t : State) : Prop where
  alike : t.context.forget = s.context.forget
  executes : ∃ executed, t.history = executed ++ s.history ∧ ∀ x ∈ executed, x.pure = true

namespace State.PurelyTo

variable {s t u : State}

lemma refl (s : State) : s.PurelyTo s := ⟨rfl, [], rfl, by simp⟩

lemma trans (h : s.PurelyTo t) (h' : t.PurelyTo u) : s.PurelyTo u :=
  ⟨h'.alike.trans h.alike, executed_trans h.executes h'.executes⟩

/-- The same work seen from another context. -/
lemma within {f g : Context → Context} (h : s.PurelyTo t)
    (alike : (g t.context).forget = (f s.context).forget) : (s.within f).PurelyTo (t.within g) :=
  ⟨alike, h.executes⟩

end State.PurelyTo

/-! ### The course of pure evaluations -/

/-- The expressions that are pure in a context. Values may hold anything: a pure expression calls
no value. -/
def Stock.pureIn (J : Context) : Stock where
  expr e := J.isPure e = .ok true
  value _ := True
  plain := Stock.all.plain
  array := Stock.all.array
  lambda _ := trivial
  called judged _ := nomatch judged
  literal _ := trivial
  part := Expr.isPure_of_mem_parts

lemma Stock.grants_of_binding {J : Context} {b : Binding} (h : (Stock.pureIn J).binding b) :
    J.Grants b := by
  obtain ⟨_, _, content⟩ := b
  cases content with
  | ready v => trivial
  | deferred e memo => exact h.1

/-- What is judged pure in a context runs purely, from every context that this one carries and over
functions that are allowed. -/
def Course.purity (J : Context) {Allowed : Function → Prop} (all : J.registry.All Allowed) :
    Course where
  toStock := .pureIn J
  Starts s := J.Carries s.context
  Leads s t := s.PurelyTo t
  Knows f := f.isPure = true ∧ Allowed f
  weighed _ := True
  refl := .refl
  trans := .trans
  starts carries leads := carries.of_forget leads.alike
  opens carries fresh pushed := by
    obtain ⟨_, _, rfl⟩ := Context.push_eq_ok_iff.1 pushed
    exact carries.scope.bind fun b mem => Stock.grants_of_binding (fresh b mem)
  leaves pushed leads := by
    have alike := Context.leave_eq_of_forget leads.alike
    rw [Context.leave_of_push pushed] at alike
    exact ⟨alike, leads.executes⟩
  executes {s f values _} _ known _ := by
    refine ⟨rfl, [⟨f.name, f.pure, values⟩], rfl, fun x mem => ?_⟩
    rw [List.mem_singleton.1 mem]
    exact known.1
  executed _ _ _ := trivial
  known {s name es _} carries he found := by
    have he : J.isPure (.call name es) = .ok true := he
    simp only [Context.isPure, Expr.isPure, and_eq_ok_true] at he
    have found' := carries.function? found
    exact ⟨Context.isPure_of_isFunctionPure he.1 found',
      all _ _ (Context.get?_of_function? found')⟩
  keeps _ := Stock.function_of_value (fun _ => trivial) _
  convert _ _ _ := trivial
  parse _ _ _ := trivial

/-! ### Names -/

/-- That an evaluator executes pure functions only, for every expression that is pure in a context
with allowed functions and from every context that this one carries. -/
def Evaluator.RespectsPurity (Allowed : Function → Prop) (evaluate : Evaluator) : Prop :=
  ∀ (J : Context) (all : J.registry.All Allowed) (e : Expr), J.isPure e = .ok true →
    (Course.purity J all).Runs (evaluate e) fun _ => True

section Names

variable {Allowed : Function → Prop} {evaluate : Evaluator} {J c : Context} {name : String}

/-- Reading a binding evaluates its expression, if anything, in the view below. -/
lemma purely_read {b : Binding} {below : Context} {history : List Execution}
    (h : ∀ e memo, b.content = .deferred e memo →
      (⟨below, history⟩ : State).PurelyTo ((evaluate e).runFrom ⟨below, history⟩).2) :
    (⟨.binding b below, history⟩ : State).PurelyTo (b.read evaluate below history).2 := by
  unfold Binding.read
  split
  · exact .refl _
  · exact .refl _
  · next e content =>
    have purely := h e none content
    refine purely.within (f := Context.binding b) ?_
    simp [Context.forget, purely.alike]

/-- A name that is pure in a context leads to an expression that is pure in its view. -/
lemma purely_find_of_isNamePure (respects : evaluate.RespectsPurity Allowed)
    (all : c.registry.All Allowed) (pure : c.isNamePure name = true) (history : List Execution) :
    (⟨c, history⟩ : State).PurelyTo (c.find (Binding.read evaluate) name history).2 := by
  induction c with
  | bare => exact .refl _
  | root r => exact .refl _
  | layer l below ih =>
    have purely := ih all pure
    exact purely.within (f := Context.layer l) (congrArg (Context.layer l) purely.alike)
  | scope parent ih =>
    have purely := ih all pure
    exact purely.within (f := Context.scope) (congrArg Context.scope purely.alike)
  | binding b below ih =>
    simp only [Context.isNamePure] at pure
    simp only [Context.find]
    split at pure
    · next found =>
      rw [if_pos found]
      refine purely_read fun e memo content => ?_
      simp only [content] at pure
      have judged : below.isPure e = .ok true := Context.eq_ok_true_of_verdict pure
      exact (respects below all e judged ⟨below, history⟩ (.base rfl)).1
    · next unbound =>
      rw [if_neg unbound]
      have purely := ih all pure
      exact purely.within (f := Context.binding b)
        (congrArg (Context.binding b.forget) purely.alike)

/-- A name that is pure in the judging context may be hidden by what is pure there, too. -/
lemma purely_find (respects : evaluate.RespectsPurity Allowed) (all : J.registry.All Allowed)
    (pure : J.isNamePure name = true) (carries : J.Carries c) (history : List Execution) :
    (⟨c, history⟩ : State).PurelyTo (c.find (Binding.read evaluate) name history).2 := by
  induction carries with
  | base alike =>
    rw [← Context.registry_eq_of_forget alike] at all
    rw [← Context.isNamePure_eq_of_forget alike] at pure
    exact purely_find_of_isNamePure respects all pure history
  | scope _ ih => exact ih.within (f := Context.scope) (congrArg Context.scope ih.alike)
  | @binding b below grants carries ih =>
    simp only [Context.find]
    split
    · refine purely_read fun e memo content => ?_
      have judged : J.isPure e = .ok true := by simpa [Context.Grants, content] using grants
      exact (respects J all e judged ⟨below, history⟩ carries).1
    · exact ih.within (f := Context.binding b) (congrArg (Context.binding b.forget) ih.alike)

lemma purely_lookup (respects : evaluate.RespectsPurity Allowed) (all : J.registry.All Allowed)
    (pure : J.isNamePure name = true) :
    (Course.purity J all).Runs (Evaluation.lookup evaluate name) fun _ => True := by
  rintro ⟨c, history⟩ carries
  rw [Evaluation.lookup_eq_find]
  exact ⟨purely_find respects all pure carries history, fun _ _ => trivial⟩

end Names

/-! ### Expressions -/

/-- An evaluator respects purity to every depth if what criteria lead to does. -/
theorem Expr.respectsPurity_of_step {Allowed : Function → Prop} {evaluate weigh : ℕ → Evaluator}
    (zero : ∀ e, evaluate 0 e = throw .exhausted)
    (succ : ∀ depth e, evaluate (depth + 1) e =
      e.stepWeighing (Evaluation.lookup (evaluate depth)) (evaluate depth) (weigh depth))
    (criteria : ∀ depth, (evaluate depth).RespectsPurity Allowed →
      ∀ r, Allowed (.rangeReducer r) → ∀ (J : Context) (all : J.registry.All Allowed) (e : Expr),
        (Course.purity J all).Runs (weigh depth e) fun _ => True)
    (depth : ℕ) : (evaluate depth).RespectsPurity Allowed := by
  induction depth with
  | zero =>
    intro J _ e _ s _
    rw [zero]
    exact ⟨.refl s, nofun⟩
  | succ depth ih =>
    intro J all e pure
    rw [succ]
    refine Course.runs_stepWeighing pure ?_ (ih J all) ?_
    · rintro name rfl
      exact purely_lookup ih all (Except.ok.inj pure)
    · exact fun r known e _ => criteria depth ih r known.2 J all e

end Formula
