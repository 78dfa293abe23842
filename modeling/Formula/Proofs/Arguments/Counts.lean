import Formula.Proofs.Context.Views
import Formula.Proofs.Evaluation.Course
import Mathlib.Data.Nat.Notation
import Mathlib.Tactic.SplitIfs

/-!
# Numbers of values

A host function says how many values it takes, at least and at most. It is executed on no other
number of values, wherever in an evaluation that happens: by the expression itself, by a name whose
expression is evaluated only then, by the body of a lambda or by a criterion.
-/

namespace Formula

open Evaluation

/-- That a host function takes a number of values. -/
structure HostFunction.Takes (f : HostFunction) (count : ℕ) : Prop where
  least : f.least ≤ count
  most : ∀ most ∈ f.most?, count ≤ most

/-- A host function declares one parameter for each value, if it takes that many. -/
lemma Function.hostShape_eq_ok_iff {f : HostFunction} {count : ℕ} {parameters : List Parameter} :
    hostShape f count = .ok parameters ↔
      f.Takes count ∧ parameters = numbered "arg" .value count := by
  unfold hostShape
  split_ifs with few
  · exact ⟨nofun, fun h => absurd h.1.least (Nat.not_le_of_lt few)⟩
  · have enough := Nat.le_of_not_lt few
    split
    · next most bounded =>
      split_ifs with many
      · exact ⟨nofun, fun h => absurd (h.1.most most bounded) (Nat.not_le_of_lt many)⟩
      · have takes : f.Takes count :=
          ⟨enough, by simpa [bounded] using Nat.le_of_not_lt many⟩
        simp [takes, eq_comm]
    · next unbounded =>
      have takes : f.Takes count := ⟨enough, by simp [unbounded]⟩
      simp [takes, eq_comm]

/-! ### Executions -/

/-- That an execution is one of a host function in a registry, on as many values as it takes. -/
def Registry.Admits (r : Registry) (x : Execution) : Prop :=
  ∃ name f, r.get? name = some (.host f) ∧ x.function = f.name ∧ x.pure = f.pure ∧
    f.Takes x.arguments.length

/-- That a run went on over the same registry, and executed what this admits. -/
structure State.AdmittedTo (s t : State) : Prop where
  registry : t.context.registry = s.context.registry
  executes : ∃ executed, t.history = executed ++ s.history ∧
    ∀ x ∈ executed, s.context.registry.Admits x

namespace State.AdmittedTo

variable {s t u : State}

lemma refl (s : State) : s.AdmittedTo s := ⟨rfl, [], rfl, by simp⟩

lemma trans (h : s.AdmittedTo t) (h' : t.AdmittedTo u) : s.AdmittedTo u :=
  ⟨h'.registry.trans h.registry, executed_trans h.executes (h.registry ▸ h'.executes)⟩

/-- The same work seen from other contexts over the registry. -/
lemma within {f g : Context → Context} (h : s.AdmittedTo t)
    (before : (f s.context).registry = s.context.registry)
    (after : (g t.context).registry = t.context.registry) :
    (s.within f).AdmittedTo (t.within g) := by
  refine ⟨after.trans (h.registry.trans before.symm), ?_⟩
  rw [State.within_context, before]
  exact h.executes

end State.AdmittedTo

/-- Evaluations over a registry execute what it admits, from every state. -/
def Course.admission (r : Registry) : Course where
  toStock := .all
  Starts s := s.context.registry = r
  Leads s t := s.AdmittedTo t
  Knows f := ∃ name, r.get? name = some f
  weighed _ := True
  refl := .refl
  trans := .trans
  starts here leads := leads.registry.trans here
  opens here _ pushed := (Context.registry_of_push pushed).trans here
  leaves {s t _ _} pushed leads := by
    have same := Context.registry_of_push pushed
    obtain ⟨inside, executes⟩ := leads
    refine ⟨(Context.registry_leave t.context).trans (inside.trans same), ?_⟩
    rwa [same] at executes
  executes {s f values _} here known taken := by
    obtain ⟨name, found⟩ := known
    refine ⟨rfl, [⟨f.name, f.pure, values⟩], rfl, fun x mem => ?_⟩
    rw [List.mem_singleton.1 mem, here]
    exact ⟨name, f, found, rfl, rfl, (Function.hostShape_eq_ok_iff.1 taken).1⟩
  executed _ _ _ := trivial
  known here _ found := ⟨_, here ▸ Context.get?_of_function? found⟩
  keeps _ := Stock.function_all _
  convert _ _ _ := trivial
  parse _ _ _ := trivial

section

variable {evaluate : Evaluator} {r : Registry}

/-- Reading a binding evaluates its expression, if anything, in the view below. -/
lemma admitted_read (h : ∀ e, (Course.admission r).Runs (evaluate e) fun _ => True) (b : Binding)
    {below : Context} (here : below.registry = r) (history : List Execution) :
    (⟨.binding b below, history⟩ : State).AdmittedTo (b.read evaluate below history).2 := by
  unfold Binding.read
  split
  · exact .refl _
  · exact .refl _
  · next e _ =>
    have leads := (h e ⟨below, history⟩ here).1
    exact leads.within (f := .binding b) rfl rfl

lemma admitted_lookup (h : ∀ e, (Course.admission r).Runs (evaluate e) fun _ => True)
    (name : String) :
    (Course.admission r).Runs (Evaluation.lookup evaluate name) fun _ => True := by
  rintro ⟨c, history⟩ here
  refine ⟨?_, fun _ _ => trivial⟩
  rw [Evaluation.lookup_eq_find, Evaluation.runFrom_find]
  change (⟨c, history⟩ : State).AdmittedTo (c.find (Binding.read evaluate) name history).2
  induction c with
  | bare => exact .refl _
  | root r => exact .refl _
  | layer l below ih => exact (ih here).within (f := .layer l) (g := .layer l) rfl rfl
  | scope parent ih => exact (ih here).within (f := .scope) (g := .scope) rfl rfl
  | binding b below ih =>
    have here : below.registry = r := here
    simp only [Context.find]
    split
    · exact admitted_read h b here history
    · exact (ih here).within (f := .binding b) (g := .binding b) rfl rfl

end

/-- Whatever is evaluated, host functions are executed on as many values as they take. -/
theorem Expr.admitted_evaluate (depth : ℕ) (e : Expr) (s : State) :
    s.AdmittedTo ((evaluate depth e).runFrom s).2 := by
  have runs (r : Registry) : ∀ e, (Course.admission r).Runs (evaluate depth e) fun _ => True := by
    induction depth with
    | zero => exact fun e s _ => ⟨.refl s, nofun⟩
    | succ depth ih =>
      intro e
      rw [evaluate, ← stepWeighing_self]
      exact Course.runs_stepWeighing trivial (fun name _ => admitted_lookup ih name)
        (fun p _ => ih p) fun _ _ p _ => ih p
  exact (runs _ e s rfl).1

end Formula
