import Formula.Proofs.Evaluation.Logic

/-!
# The course of an evaluation

What an evaluation does to a state is said by a relation between the state before and the state
after it, which has to be shown of opening and leaving a scope and of executing a host function
only. `Course` lists what has to be shown, and `Course.logic` turns it into a logic.
-/

namespace Formula

open Evaluation

/-- What holds of the executions in two runs holds of those in one run after the other. -/
lemma executed_trans {P : Execution → Prop} {first second third : List Execution}
    (h : ∃ executed, second = executed ++ first ∧ ∀ x ∈ executed, P x)
    (h' : ∃ executed, third = executed ++ second ∧ ∀ x ∈ executed, P x) :
    ∃ executed, third = executed ++ first ∧ ∀ x ∈ executed, P x := by
  obtain ⟨before, rfl, good⟩ := h
  obtain ⟨after, rfl, good'⟩ := h'
  refine ⟨after ++ before, (List.append_assoc ..).symm, fun x mem => ?_⟩
  exact (List.mem_append.1 mem).elim (good' x) (good x)

/-- A relation between the states before and after evaluations, which start in certain states and do
not lead out of them. -/
structure Course extends Stock where
  /-- The states in which evaluations start. -/
  Starts : State → Prop
  /-- The states that a state leads to. -/
  Leads : State → State → Prop
  /-- The functions that may be met. -/
  Knows : Function → Prop
  /-- The expressions that criteria may have. -/
  weighed : Expr → Prop
  refl : ∀ s : State, Leads s s
  trans : ∀ {s t u : State}, Leads s t → Leads t u → Leads s u
  starts : ∀ {s t : State}, Starts s → Leads s t → Starts t
  opens : ∀ {s : State} {bindings : List Binding} {inner : Context}, Starts s →
    (∀ b ∈ bindings, toStock.binding b) → s.context.push bindings = .ok inner →
    Starts ⟨inner, s.history⟩
  leaves : ∀ {s t : State} {bindings : List Binding} {inner : Context},
    s.context.push bindings = .ok inner → Leads ⟨inner, s.history⟩ t → Leads s (t.within .leave)
  executes : ∀ {s : State} {f : HostFunction} {values : List Value} {parameters : List Parameter},
    Starts s → Knows (.host f) → Function.hostShape f values.length = .ok parameters →
    Leads s { s with history := ⟨f.name, f.pure, values⟩ :: s.history }
  executed : ∀ {f : HostFunction} {history : List Execution} {values : List Value} {v : Value},
    Knows (.host f) → (∀ x ∈ values, value x) → f.execute history values = .ok v → value v
  known : ∀ {s : State} {name : String} {arguments : List Expr} {f : Function}, Starts s →
    expr (.call name arguments) → s.context.function? name = .ok (some f) → Knows f
  keeps : ∀ {f : Function}, Knows f → toStock.function f
  convert : ∀ {s : State} {v r : Value} {type : TypeName}, Starts s → value v →
    s.context.convert v type = .ok r → value r
  parse : ∀ {s : State} {r : RangeReducer} {text : String} {e : Expr},
    Knows (.rangeReducer r) → Starts s → s.context.parse text = .ok e → weighed e

namespace Course

variable (C : Course) {α β : Type} {work : Evaluation α} {Q : α → Prop}

/-- That work takes its course from every state in which it may start, and has answers with a
property. -/
def Runs (work : Evaluation α) (Q : α → Prop) : Prop :=
  ∀ s, C.Starts s → C.Leads s (work.runFrom s).2 ∧ ∀ a, (work.runFrom s).1 = .ok a → Q a

variable {C}

lemma runs_pure {a : α} (h : Q a) : C.Runs (pure a) Q := by
  intro s _
  refine ⟨C.refl s, ?_⟩
  rintro b ⟨⟩
  exact h

lemma runs_fail {fault : Fault} : C.Runs (fail fault) Q :=
  fun s _ => ⟨C.refl s, nofun⟩

lemma runs_bind {next : α → Evaluation β} {R : β → Prop} (first : C.Runs work Q)
    (second : ∀ a, Q a → C.Runs (next a) R) : C.Runs (work >>= next) R := by
  intro s starts
  obtain ⟨leads, good⟩ := first s starts
  cases outcome : (work.runFrom s).1 with
  | error failure =>
    rw [runFrom_bind_of_error outcome]
    exact ⟨leads, nofun⟩
  | ok a =>
    obtain ⟨leads', good'⟩ := second a (good a outcome) _ (C.starts starts leads)
    rw [runFrom_bind_of_ok (Prod.ext outcome rfl)]
    exact ⟨C.trans leads leads', good'⟩

lemma runs_ask {f : Context → Except Fault α}
    (answer : ∀ c a, (∃ s, C.Starts s ∧ s.context = c) → f c = .ok a → Q a) :
    C.Runs (context >>= fun c => ofExcept (f c)) Q := by
  intro s starts
  rw [runFrom_bind_of_ok (runFrom_context s), runFrom_ofExcept]
  exact ⟨C.refl s, fun a ha => answer s.context a ⟨s, starts, rfl⟩ (eq_ok_of_mapError ha)⟩

lemma runs_inScope {bindings : List Binding} (fresh : ∀ b ∈ bindings, C.binding b)
    (h : C.Runs work Q) : C.Runs (inScope bindings work) Q := by
  intro s starts
  cases pushed : s.context.push bindings with
  | error fault =>
    rw [runFrom_inScope_of_error pushed]
    exact ⟨C.refl s, nofun⟩
  | ok inner =>
    obtain ⟨leads, good⟩ := h ⟨inner, s.history⟩ (C.opens starts fresh pushed)
    rw [runFrom_inScope_of_ok pushed]
    exact ⟨C.leaves pushed leads, good⟩

lemma runs_execute {f : HostFunction} {values : List Value} {parameters : List Parameter}
    (known : C.Knows (.host f)) (taken : Function.hostShape f values.length = .ok parameters)
    (hv : ∀ v ∈ values, C.value v) : C.Runs (Evaluation.execute f values) C.value := by
  intro s starts
  rw [runFrom_execute]
  exact ⟨C.executes starts known taken, fun v run => C.executed known hv (eq_ok_of_mapError run)⟩

/-- That evaluations take their course, as a logic. -/
def logic (C : Course) : Logic Unit Unit where
  toStock := C.toStock
  Holds _ _ work Q := C.Runs (work ()) Q
  Seen _ c := ∃ s, C.Starts s ∧ s.context = c
  Opens _ _ _ := True
  Knows := C.Knows
  weighed := C.weighed
  pure := runs_pure
  fail := runs_fail
  bind := runs_bind
  ask _ := runs_ask
  inScope fresh h := runs_inScope fresh (h () trivial)
  execute := runs_execute
  known := by
    rintro _ _ name arguments f ⟨s, starts, rfl⟩
    exact C.known starts
  keeps := C.keeps
  convert := by
    rintro _ _ v r type ⟨s, starts, rfl⟩
    exact C.convert starts
  parse := by
    rintro _ _ r text e known ⟨s, starts, rfl⟩
    exact C.parse known starts

/-- What the language makes of names, expressions and criteria that take their course does so,
too. -/
theorem runs_stepWeighing {lookup : String → Evaluation Value} {evaluate weigh : Evaluator}
    {e : Expr} (he : C.expr e)
    (names : ∀ name, e = .variable name → C.Runs (lookup name) C.value)
    (expressions : ∀ p, C.expr p → C.Runs (evaluate p) C.value)
    (criteria : ∀ r, C.Knows (.rangeReducer r) → ∀ p, C.weighed p → C.Runs (weigh p) C.value) :
    C.Runs (e.stepWeighing lookup evaluate weigh) C.value := by
  change C.logic.Holds () (fun _ => e.stepWeighing lookup evaluate weigh) C.value
  refine C.logic.stepWeighing he names ?_ ?_ criteria
  · exact fun p _ hp => expressions p hp
  · exact fun _ _ _ _ p hp => expressions p hp

end Course

end Formula
