import Formula.Evaluation

/-!
# Arguments

What functions make of unevaluated arguments before their own work starts: values, with spreads
opened, and names to be bound.
-/

namespace Formula.Expr

open Evaluation

/-- The values of expressions, from left to right. -/
def evaluateAll (evaluate : Evaluator) : List Expr → Evaluation (List Value)
  | [] => pure []
  | e :: es => do
    let v ← evaluate e
    let vs ← evaluateAll evaluate es
    return v :: vs

/-- The values of arguments, from left to right; a spread stands for the items of its array. -/
def prepare (evaluate : Evaluator) : List Expr → Evaluation (List Value)
  | [] => pure []
  | .spread e :: es => do
    match ← evaluate e with
    | .array items => do
      let vs ← prepare evaluate es
      return items ++ vs
    | _ => fail (.evaluation .spreadOfScalar)
  | e :: es => do
    let v ← evaluate e
    let vs ← prepare evaluate es
    return v :: vs

/-- The name that an argument gives: a bare name is taken as it is written, anything else has to
evaluate to a text. -/
def bindingName (evaluate : Evaluator) (position : Nat) : Expr → Evaluation String
  | .variable name => pure name
  | e => do
    match ← evaluate e with
    | .text name => pure name
    | v => fail (.naming (.notName position v.kind))

/-- The names that arguments give, the first one at `position`. -/
def bindingNames (evaluate : Evaluator) : (position : Nat) → List Expr → Evaluation (List String)
  | _, [] => pure []
  | position, e :: es => do
    let name ← bindingName evaluate position e
    let names ← bindingNames evaluate (position + 1) es
    return name :: names

/-- The bindings that pairs of a name and a value make, the first name at `position`. The values
stay unevaluated. -/
def letBindings (evaluate : Evaluator) : (position : Nat) → List Expr → Evaluation (List Binding)
  | _, [] => pure []
  | position, [name] => do
    let _ ← bindingName evaluate position name
    fail (.arity .letWithoutFinal)
  | position, name :: value :: rest => do
    let name ← bindingName evaluate position name
    let bindings ← letBindings evaluate (position + 2) rest
    return ⟨name, position, .deferred value none⟩ :: bindings

/-- The parameter names that arguments give, which have to be fit for one scope. -/
def lambdaParameters (evaluate : Evaluator) (arguments : List Expr) :
    Evaluation (List String) := do
  let names ← bindingNames evaluate 1 arguments
  ofExcept (validateNames (← context).policy (names.zipIdx 1))
  return names

end Formula.Expr
