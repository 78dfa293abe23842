import Formula.Number.Style
import Formula.Text.Quoted
import Formula.Value

/-!
# Inspecting values

A value written out in full, so that values that differ show it: every kind is named, texts are
quoted, and lambdas show the tree of their body.
-/

namespace Formula

/-- The name of an operator with one operand, written out. -/
def UnaryOp.inspect : UnaryOp → String
  | .plus => "Plus"
  | .minus => "Minus"
  | .not => "Not"

/-- The name of an operator between two operands, written out. -/
def BinaryOp.inspect : BinaryOp → String
  | .add => "Add"
  | .sub => "Sub"
  | .mul => "Mul"
  | .div => "Div"
  | .mod => "Mod"
  | .pow => "Pow"
  | .gt => "Gt"
  | .lt => "Lt"
  | .ge => "Ge"
  | .le => "Le"
  | .eq => "Eq"
  | .ne => "Ne"
  | .and => "And"
  | .or => "Or"

/-- A name with its parts in parentheses. -/
def tagged (tag : String) (parts : List String) : String := tag ++ "(" ++ Text.joined parts ++ ")"

/-- A name with its fields in braces. -/
def record (tag : String) (fields : List (String × String)) : String :=
  tag ++ " \x7b " ++ Text.joined (fields.map fun f => f.1 ++ ": " ++ f.2) ++ " \x7d"

mutual

/-- A value written out in full. -/
def Value.inspect : Value → String
  | .number x => tagged "Number" [Number.write .inspection x]
  | .text s => tagged "String" [Text.quoted s]
  | .boolean b => tagged "Boolean" [if b then "true" else "false"]
  | .null => "Null"
  | .array items => tagged "Array" [Text.bracketed (Value.inspectAll items)]
  | .lambda parameters body =>
    tagged "Lambda" [record "Lambda"
      [("params", Text.bracketed (parameters.map Text.quoted)), ("body", Expr.inspect body)]]
termination_by structural v => v

/-- The values of a list written out in full. -/
def Value.inspectAll : List Value → List String
  | [] => []
  | v :: vs => v.inspect :: Value.inspectAll vs
termination_by structural vs => vs

/-- An expression written out in full. -/
def Expr.inspect : Expr → String
  | .literal v => tagged "Literal" [v.inspect]
  | .number x => tagged "Number" [Number.write .inspection x]
  | .text s => tagged "StringLit" [Text.quoted s]
  | .null => "Null"
  | .unary op e => tagged "Unary" [op.inspect, e.inspect]
  | .binary l op r => tagged "Binary" [l.inspect, op.inspect, r.inspect]
  | .variable name => tagged "Variable" [Text.quoted name]
  | .call name es =>
    record "FunctionCall"
      [("name", Text.quoted name), ("args", Text.bracketed (Expr.inspectAll es))]
  | .invoke target es =>
    record "Invoke" [("target", target.inspect), ("args", Text.bracketed (Expr.inspectAll es))]
  | .spread e => tagged "Spread" [e.inspect]
  | .array es => tagged "Array" [Text.bracketed (Expr.inspectAll es)]
  | .cast e type => record "TypeCast" [("expr", e.inspect), ("ty", type.name)]
termination_by structural e => e

/-- The expressions of a list written out in full. -/
def Expr.inspectAll : List Expr → List String
  | [] => []
  | e :: es => e.inspect :: Expr.inspectAll es
termination_by structural es => es

end

end Formula
