import Formula.Evaluation

/-!
# Looking up names

A name stands for what the innermost scope with a matching binding says, or else for what the root
says. A deferred binding is evaluated in the view below it, and its value is kept in the binding if
it is pure there.
-/

namespace Formula

/-- A binding after its expression was evaluated in the view below. The value is kept when the
expression is pure there; a failure is never kept. -/
def Binding.settle (b : Binding) (below : Context) (outcome : Except Failure Value) : Binding :=
  match b.content, outcome with
  | .deferred e _, .ok v =>
    if verdict (below.isPure e) then { b with content := .deferred e (some v) } else b
  | _, _ => b

/-- Looks a name up in a context, with a way to evaluate deferred bindings. -/
def Context.lookup (evaluate : Evaluator) (name : String) :
    Context → List Execution → Except Failure Value × State
  | .bare, history => (.error (.fault (.unresolved name)), ⟨.bare, history⟩)
  | .root r, history => ((r.lookup name).mapError .fault, ⟨.root r, history⟩)
  | .layer l below, history =>
    let (outcome, s) := below.lookup evaluate name history
    (outcome, { s with context := .layer l s.context })
  | .scope parent, history =>
    let (outcome, s) := parent.lookup evaluate name history
    (outcome, { s with context := .scope s.context })
  | .binding b below, history =>
    if below.policy.namesEqual b.name name then
      match b.content with
      | .ready v => (.ok v, ⟨.binding b below, history⟩)
      | .deferred _ (some v) => (.ok v, ⟨.binding b below, history⟩)
      | .deferred e none =>
        let (outcome, s) := (evaluate e).runFrom ⟨below, history⟩
        (outcome, { s with context := .binding (b.settle below outcome) s.context })
    else
      let (outcome, s) := below.lookup evaluate name history
      (outcome, { s with context := .binding b s.context })

/-- Looks a name up in the context as it is now. -/
def Evaluation.lookup (evaluate : Evaluator) (name : String) : Evaluation Value :=
  fun s => s.context.lookup evaluate name s.history

end Formula
