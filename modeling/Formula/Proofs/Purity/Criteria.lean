import Formula.Proofs.Purity.Execution
import Formula.Proofs.Termination.Convergence

/-!
# Criteria and purity

Where no function weighs criteria, an expression that is judged pure executes pure functions only.
The verdict does not look into criteria, which are texts until they are weighed, so it can be wrong
about a call that weighs them; but in no other way. If the expression of each criterion were judged
where it is weighed, and refused unless it is pure there, the verdict would hold, and nothing would
change for evaluations without a refusal.
-/

namespace Formula

open Evaluation

namespace Expr

variable {c : Context} {e : Expr}

/-- Where no function weighs criteria, an expression that is judged pure executes pure functions
only, to whatever depth it is followed, whatever the bindings hold and keep. -/
theorem executes_pure_of_isPure (plain : c.registry.All fun f => ¬ f.Weighs)
    (pure : c.isPure e = .ok true) (depth : ℕ) (history : List Execution) :
    ∃ executed, ((evaluate depth e).runFrom ⟨c, history⟩).2.history = executed ++ history ∧
      ∀ x ∈ executed, x.pure = true := by
  have succ : ∀ depth e, evaluate (depth + 1) e = e.stepWeighing
      (Evaluation.lookup (evaluate depth)) (evaluate depth) (evaluate depth) :=
    fun depth e => (e.stepWeighing_self _ _).symm
  have respects : Evaluator.RespectsPurity (fun f => ¬ f.Weighs) (evaluate depth) :=
    respectsPurity_of_step (fun _ => rfl) succ (fun _ _ r known => absurd trivial known) depth
  exact (respects c plain e pure ⟨c, history⟩ (.base rfl)).1.executes

/-- An inner `LET` hides a name that is bound to a pure call, beside a function that is impure. -/
theorem executes_pure_of_isPure_hiding :
    let one : HostFunction := { name := "ONE", execute := fun _ _ => .ok (.boolean true) }
    let two : HostFunction := { one with name := "TWO", pure := false }
    let r := ((Registry.empty.insert "LET" .letForm).insert "ONE" (.host one)).insert "TWO"
      (.host two)
    let c : Context := .binding ⟨"a", 1, .deferred (.call "ONE" []) none⟩
      (.scope (.root { registry := r }))
    let e : Expr := .call "LET" [.variable "x", .variable "a",
      .call "LET" [.variable "a", .array [.variable "x", .variable "x"], .variable "a"]]
    (c.registry.All fun f => ¬ f.Weighs) ∧ c.isPure e = .ok true ∧
      ((evaluate 9 e).runFrom ⟨c, []⟩).2.history.map (·.function) = ["ONE"] ∧
      ∃ executed, ((evaluate 9 e).runFrom ⟨c, []⟩).2.history = executed ++ [] ∧
        ∀ x ∈ executed, x.pure = true := by
  intro one two r c e
  have plain : c.registry.All fun f => ¬ f.Weighs :=
    ((Registry.all_empty.insert id _).insert id _).insert id _
  have pure : c.isPure e = .ok true := by decide +kernel
  exact ⟨plain, pure, by decide +kernel, executes_pure_of_isPure plain pure 9 []⟩

/-! ### Judging criteria where they are weighed -/

/-- Evaluates the expression of a criterion if it is pure where it is weighed. -/
def vetted (refusal : Fault) (evaluate : Evaluator) : Evaluator := fun e => do
  if verdict ((← context).isPure e) then evaluate e else fail refusal

/-- The value of an expression, to a given depth, when the expressions of criteria are judged before
they are evaluated. -/
def evaluateVetting (refusal : Fault) : (depth : ℕ) → Evaluator
  | 0, _ => throw .exhausted
  | depth + 1, e =>
    e.stepWeighing (Evaluation.lookup (evaluateVetting refusal depth))
      (evaluateVetting refusal depth) (vetted refusal (evaluateVetting refusal depth))

variable {refusal : Fault}

lemma runFrom_vetted (evaluate : Evaluator) (e : Expr) (s : State) :
    (vetted refusal evaluate e).runFrom s =
      if verdict (s.context.isPure e) then (evaluate e).runFrom s
      else (.error (.fault refusal), s) := by
  rw [vetted, runFrom_bind_of_ok (runFrom_context s)]
  split <;> rfl

/-- With a verdict on every criterion, the verdict on an expression can be relied upon. -/
lemma respectsPurity_evaluateVetting (depth : ℕ) :
    (evaluateVetting refusal depth).RespectsPurity fun _ => True := by
  refine respectsPurity_of_step (fun _ => rfl) (fun _ _ => rfl) ?_ depth
  intro depth respects _ _ J all e s carries
  rw [runFrom_vetted]
  split
  · next judged =>
    rw [← carries.registry_eq] at all
    exact respects s.context all e (Context.eq_ok_true_of_verdict judged) s (.base rfl)
  · exact ⟨.refl s, nofun⟩

/-- A verdict that refuses nothing changes nothing. -/
lemma agrees_evaluateVetting (depth : ℕ) :
    (evaluateVetting refusal depth).Agrees (· = .fault refusal) (evaluate depth) := by
  induction depth with
  | zero => exact fun e s => .inr rfl
  | succ depth ih =>
    intro e
    have criteria : (vetted refusal (evaluateVetting refusal depth)).Agrees (· = .fault refusal)
        (evaluate depth) := by
      intro e s
      rw [runFrom_vetted]
      split
      · exact ih e s
      · exact .inl ⟨_, rfl, rfl⟩
    rw [evaluateVetting, evaluate, ← stepWeighing_self]
    exact ih.stepWeighing ih.lookup criteria e

/-- A pure verdict fails only through criteria: if each were judged where it is weighed, an
expression that is judged pure would execute pure functions only, and it would come to the same as
it does unless a criterion were refused. -/
theorem executes_pure_of_vetting (pure : c.isPure e = .ok true) (refusal : Fault) (depth : ℕ)
    (history : List Execution) :
    (∃ executed, ((evaluateVetting refusal depth e).runFrom ⟨c, history⟩).2.history =
        executed ++ history ∧ ∀ x ∈ executed, x.pure = true) ∧
    (((evaluateVetting refusal depth e).runFrom ⟨c, history⟩).1 = .error (.fault refusal) ∨
      (evaluate depth e).runFrom ⟨c, history⟩ =
        (evaluateVetting refusal depth e).runFrom ⟨c, history⟩) := by
  constructor
  · have respects : Evaluator.RespectsPurity (fun _ => True) (evaluateVetting refusal depth) :=
      respectsPurity_evaluateVetting depth
    exact (respects c (fun _ _ _ => trivial) e pure ⟨c, history⟩ (.base rfl)).1.executes
  · rcases agrees_evaluateVetting depth e ⟨c, history⟩ with ⟨_, rfl, refused⟩ | eq
    · exact .inl refused
    · exact .inr eq

/-- A criterion that is pure where it is weighed. -/
theorem executes_pure_of_vetting_count :
    let refusal : Fault := .evaluation .nestingTooDeep
    let c : Context := .root {}
    let e : Expr := .call "COUNTIF" [.literal (.boolean true), .text "<>COUNT()"]
    c.isPure e = .ok true ∧
      (∃ executed, ((evaluateVetting refusal 3 e).runFrom ⟨c, []⟩).2.history = executed ++ [] ∧
        ∀ x ∈ executed, x.pure = true) ∧
      (((evaluateVetting refusal 3 e).runFrom ⟨c, []⟩).1 = .error (.fault refusal) ∨
        (evaluate 3 e).runFrom ⟨c, []⟩ = (evaluateVetting refusal 3 e).runFrom ⟨c, []⟩) :=
  ⟨rfl, executes_pure_of_vetting rfl _ 3 []⟩

/-! ### A criterion that calls an impure function -/

/-- A function that is impure and always answers `TRUE`. -/
def tick : HostFunction where
  name := "TICK"
  pure := false
  execute _ _ := .ok (.boolean true)

/-- A root with that function beside the built-in ones. -/
def ticking : Root := { registry := Registry.builtins.insert "TICK" (.host tick) }

/-- The verdict on `COUNTIF(TRUE,"=TICK()")` is that it is pure, but its evaluation executes an
impure function. -/
theorem isPure_ticking :
    let e : Expr := .call "COUNTIF" [.literal (.boolean true), .text "=TICK()"]
    Context.isPure (.root ticking) e = .ok true ∧
      ∃ outcome t, e.Answers ⟨.root ticking, []⟩ outcome t ∧ ∃ x ∈ t.history, x.pure = false := by
  intro e
  have judged : Context.isPure (.root ticking) e = .ok true := rfl
  have executes :
      ((evaluate 3 e).runFrom ⟨.root ticking, []⟩).2.history.map (·.pure) = [false] := by
    decide +kernel
  have answered : ((evaluate 3 e).runFrom ⟨.root ticking, []⟩).1.toOption.isSome = true := by
    decide +kernel
  have ends : ((evaluate 3 e).runFrom ⟨.root ticking, []⟩).1 ≠ .error .exhausted := by
    intro exhausted
    simp [exhausted, Except.toOption] at answered
  obtain ⟨outcome, _, answers⟩ := answersBy_of_ne_exhausted ends
  obtain ⟨x, mem, impure⟩ := List.map_eq_singleton_iff.1 executes
  exact ⟨judged, outcome, _, answers, x, by simp [mem], impure⟩

end Expr

end Formula
