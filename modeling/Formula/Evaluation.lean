import Formula.Context.Purity

/-!
# Evaluations

An evaluation answers a value or fails, and either way leaves a state behind: the context, in which
bindings may have got their values, and the executions of host functions. A recursion in a formula
is followed to a given depth; an evaluation that would go deeper is exhausted, which no formula can
see.
-/

namespace Formula

/-- Why an evaluation gives no value. -/
inductive Failure where
  | fault (fault : Fault)
  /-- The depth that was allowed did not suffice. -/
  | exhausted
  deriving DecidableEq

/-- What an evaluation works on. -/
structure State where
  context : Context
  /-- The executions of host functions, the latest first. -/
  history : List Execution := []

/-- The state with something done to its context. -/
def State.within (f : Context → Context) (s : State) : State := ⟨f s.context, s.history⟩

@[simp] theorem State.within_context (f : Context → Context) (s : State) :
    (s.within f).context = f s.context := rfl

/-- An evaluation. -/
abbrev Evaluation (α : Type) := ExceptT Failure (StateM State) α

/-- A way to evaluate expressions. -/
abbrev Evaluator := Expr → Evaluation Value

namespace Evaluation

/-- The outcome of an evaluation and the state it leaves. -/
def runFrom {α : Type} (work : Evaluation α) (s : State) : Except Failure α × State := work s

/-- The evaluation that fails with a fault. -/
def fail {α : Type} (fault : Fault) : Evaluation α := throw (.fault fault)

/-- An answer that needs no state. -/
def ofExcept {α : Type} : Except Fault α → Evaluation α
  | .ok a => pure a
  | .error fault => fail fault

/-- The context as it is now. -/
def context : Evaluation Context := do return (← get).context

@[simp] theorem runFrom_pure {α : Type} (a : α) (s : State) :
    (pure a : Evaluation α).runFrom s = (.ok a, s) := rfl

@[simp] theorem runFrom_fail {α : Type} (fault : Fault) (s : State) :
    (fail fault : Evaluation α).runFrom s = (.error (.fault fault), s) := rfl

@[simp] theorem runFrom_context (s : State) : context.runFrom s = (.ok s.context, s) := rfl

/-- One piece of work after the other: the second goes on from the state that the first leaves, and
a failure of the first is the failure of both. -/
theorem runFrom_bind {α β : Type} (work : Evaluation α) (next : α → Evaluation β) (s : State) :
    (work >>= next).runFrom s =
      match work.runFrom s with
      | (.ok a, t) => (next a).runFrom t
      | (.error failure, t) => (.error failure, t) := by
  simp only [runFrom, bind, ExceptT.bind, ExceptT.mk, StateT.bind]
  cases work s with
  | mk outcome t => cases outcome <;> rfl

/-- Works in a scope with bindings and leaves it again, also on failure. -/
def inScope {α : Type} (bindings : List Binding) (work : Evaluation α) : Evaluation α :=
  fun s =>
    match s.context.push bindings with
    | .error fault => (.error (.fault fault), s)
    | .ok inner =>
      let (outcome, t) := work { s with context := inner }
      (outcome, { t with context := t.context.leave })

/-- Executes a host function on values and records that. -/
def execute (f : HostFunction) (values : List Value) : Evaluation Value := do
  let history := (← get).history
  modify fun s => { s with history := ⟨f.name, f.pure, values⟩ :: s.history }
  ofExcept (f.execute history values)

/-! ### What the pieces come to -/

theorem runFrom_bind_of_error {α β : Type} {work : Evaluation α} {next : α → Evaluation β}
    {s : State} {failure : Failure} (h : (work.runFrom s).1 = .error failure) :
    (work >>= next).runFrom s = (.error failure, (work.runFrom s).2) := by
  rw [runFrom_bind]
  generalize work.runFrom s = run at h
  obtain ⟨_, t⟩ := run
  subst h
  rfl

theorem runFrom_bind_of_ok {α β : Type} {work : Evaluation α} {next : α → Evaluation β}
    {s t : State} {a : α} (h : work.runFrom s = (.ok a, t)) :
    (work >>= next).runFrom s = (next a).runFrom t := by
  rw [runFrom_bind, h]

@[simp] theorem runFrom_ofExcept {α : Type} (x : Except Fault α) (s : State) :
    (ofExcept x).runFrom s = (x.mapError .fault, s) := by
  cases x <;> rfl

/-- A scope that cannot be opened leaves everything as it was. -/
theorem runFrom_inScope_of_error {α : Type} {bindings : List Binding} {work : Evaluation α}
    {s : State} {fault : Fault} (h : s.context.push bindings = .error fault) :
    (inScope bindings work).runFrom s = (.error (.fault fault), s) := by
  simp only [runFrom, inScope, h]

theorem runFrom_inScope_of_ok {α : Type} {bindings : List Binding} {work : Evaluation α}
    {s : State} {inner : Context} (h : s.context.push bindings = .ok inner) :
    (inScope bindings work).runFrom s =
      ((work.runFrom ⟨inner, s.history⟩).1,
        (work.runFrom ⟨inner, s.history⟩).2.within Context.leave) := by
  simp only [runFrom, inScope, h]
  rfl

/-- An execution is recorded whatever comes of it. -/
@[simp] theorem runFrom_execute (f : HostFunction) (values : List Value) (s : State) :
    (execute f values).runFrom s =
      ((f.execute s.history values).mapError .fault,
        { s with history := ⟨f.name, f.pure, values⟩ :: s.history }) := by
  have run : (execute f values).runFrom s =
      (ofExcept (f.execute s.history values)).runFrom
        { s with history := ⟨f.name, f.pure, values⟩ :: s.history } := rfl
  rw [run, runFrom_ofExcept]

end Evaluation

end Formula
