import Formula.Criterion
import Formula.Expr.Arguments

/-!
# Applying functions

Arguments go to a function unevaluated, so that the binding constructs decide what is evaluated and
where. `LET` puts deferred bindings under its body, a call of a lambda puts ready ones there; all
other functions work on the values of their arguments.
-/

namespace Formula.Function

open Evaluation

/-- Evaluates the last argument in a scope with the bindings that the others make. Without others
no scope is opened. -/
def applyLet (evaluate : Evaluator) (arguments : List Expr) : Evaluation Value := do
  let _ ← ofExcept (letShape arguments.length)
  match arguments.dropLast, arguments.getLast? with
  | _, none => fail (.arity .letWithoutBody)
  | [], some body => evaluate body
  | pairs, some body => do
    let bindings ← Expr.letBindings evaluate 1 pairs
    inScope bindings (evaluate body)

/-- Makes a lambda of the last argument with the names that the others give. -/
def applyLambda (evaluate : Evaluator) (arguments : List Expr) : Evaluation Value := do
  let _ ← ofExcept (lambdaShape arguments.length)
  match arguments.getLast? with
  | none => fail (.arity .lambdaWithoutBody)
  | some body => do
    let names ← Expr.lambdaParameters evaluate arguments.dropLast
    return .lambda names body

/-- The bindings of a lambda's parameters to values. -/
def parameterBindings (parameters : List String) (values : List Value) : List Binding :=
  ((parameters.zipIdx 1).zip values).map fun ((name, position), value) =>
    ⟨name, position, .ready value⟩

/-- Calls a lambda: the arguments are evaluated where it is called, and the body in a scope on top
of that. -/
def callLambda (evaluate : Evaluator) (parameters : List String) (body : Expr)
    (arguments : List Expr) : Evaluation Value := do
  let values ← Expr.prepare evaluate arguments
  if values.length = parameters.length then
    inScope (parameterBindings parameters values) (evaluate body)
  else fail (.arity (.lambdaArguments parameters.length values.length))

/-- Reduces the part of a range that meets a criterion. -/
def applyRange (evaluate : Evaluator) (r : RangeReducer) (values : List Value) :
    Evaluation Value := do
  let _ ← ofExcept (rangeShape r values.length)
  Criterion.reduceMatching evaluate (fun kept => ofExcept (r.reducer.reduce [.array kept]))
    ((values[0]?.map Value.toList).getD []) (values[2]?.map Value.toList)
    (values[1]?.getD .null)

/-- Executes a host function, provided it takes that many values. -/
def applyHost (f : HostFunction) (values : List Value) : Evaluation Value := do
  let _ ← ofExcept (hostShape f values.length)
  execute f values

/-- Applies a function to unevaluated arguments. -/
def apply (evaluate : Evaluator) (f : Function) (arguments : List Expr) : Evaluation Value :=
  match f with
  | .letForm => applyLet evaluate arguments
  | .lambdaForm => applyLambda evaluate arguments
  | .reducer r => do ofExcept (r.reduce (← Expr.prepare evaluate arguments))
  | .rangeReducer r => do applyRange evaluate r (← Expr.prepare evaluate arguments)
  | .host f => do applyHost f (← Expr.prepare evaluate arguments)

end Formula.Function
