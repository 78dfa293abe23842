import Formula.Expr.Evaluate
import Formula.Json.Value

/-!
# Evaluating formulas

The way from a formula text to its value over a root, whose variables and configuration may come
from JSON.
-/

namespace Formula

/-! ### Values of formulas -/

/-- How deep the recursion of a formula is followed where nothing else is said. -/
def evaluationDepth : Nat := 100000

/-- Reads a formula text and evaluates it over a root, after the executions of `history`. Answers
the executions up to the end as well. -/
def Root.run (root : Root) (history : List Execution) (formula : String)
    (depth : Nat := evaluationDepth) : Except Failure Value × List Execution :=
  match Expr.parse formula with
  | .error fault => (.error (.fault fault), history)
  | .ok e =>
    let (outcome, s) := (Expr.evaluate depth e).runFrom ⟨.root root, history⟩
    (outcome, s.history)

/-- The value of a formula text over a root. The configuration is checked before the text is
read. -/
def Root.evaluate (root : Root) (formula : String) (depth : Nat := evaluationDepth) :
    Except Failure Value := do
  root.config.validate.mapError .fault
  (root.run [] formula depth).1

/-! ### What JSON gives -/

/-- The configuration that a JSON text gives, provided it is sound. -/
def Config.ofJson (codec : Json.Codec) (text : String) : Except Fault Config :=
  match codec.decodeConfig text with
  | .error complaint => .error (.config (.invalid complaint))
  | .ok config => do
    config.validate
    .ok config

/-- Sets variables to the values that data stands for, in order. -/
def Variables.setAll (vs : Variables) : List (String × Json) → Except Fault Variables
  | [] => .ok vs
  | (name, json) :: rest => do Variables.setAll (vs.set name (← json.toValue)) rest

/-- Sets the variables that a JSON text gives as an object of names and values. -/
def Variables.setJson (codec : Json.Codec) (vs : Variables) (text : String) :
    Except Fault Variables :=
  match codec.decode text with
  | .error complaint => .error (.evaluation (.invalidJson complaint))
  | .ok (.object members) => vs.setAll members
  | .ok _ => .error (.evaluation .jsonNotObject)

/-- The value of a formula text over the variables that a JSON text gives. -/
def evaluateWithJson (codec : Json.Codec) (formula json : String)
    (depth : Nat := evaluationDepth) : Except Failure Value := do
  let vars ← (Variables.setJson codec [] json).mapError .fault
  Root.evaluate { vars } formula depth

end Formula
