import Formula.Context.Lookup
import Formula.Function.Apply

/-!
# Evaluating expressions

The rules of the language, one for each form of expression. A rule is given a way to evaluate other
expressions and never recurses by itself; `Expr.evaluate` closes the circle to a given depth.
-/

namespace Formula.Expr

open Evaluation

/-- The value of an expression, given the values of names and of other expressions. -/
def step (lookup : String → Evaluation Value) (evaluate : Evaluator) : Expr → Evaluation Value
  | .literal v => pure v
  | .number x => pure (.number x)
  | .text s => pure (.text s)
  | .null => pure .null
  | .unary op e => do ofExcept (op.apply (← evaluate e))
  | .binary l op r => do
    let a ← evaluate l
    let b ← evaluate r
    ofExcept (op.apply a b)
  | .variable name => lookup name
  | .array es => do return .array (← evaluateAll evaluate es)
  | .cast e type => do
    let v ← evaluate e
    ofExcept ((← context).convert v type)
  | .call name arguments => do
    match ← ofExcept ((← context).function? name) with
    | some f => f.apply evaluate arguments
    | none => fail (.evaluation (.unknownFunction name))
  | .invoke target arguments => do
    match ← evaluate target with
    | .lambda parameters body => Function.callLambda evaluate parameters body arguments
    | v => fail (.evaluation (.notCallable v.kind))
  | .spread _ => fail (.evaluation .misplacedSpread)

/-- The value of an expression, following the recursion of the formula to a given depth. -/
def evaluate : (depth : Nat) → Expr → Evaluation Value
  | 0, _ => throw .exhausted
  | depth + 1, e => step (Evaluation.lookup (evaluate depth)) (evaluate depth) e

end Formula.Expr
