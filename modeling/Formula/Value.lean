import Formula.Expr
import Formula.Text.Joined

/-!
# Values

The kinds of value, equality, and what an aggregate sees of a value: the numbers in it, how much
there is in it, and its leaves from left to right.
-/

namespace Formula

/-- The kinds of value. -/
inductive Kind where
  | number
  | text
  | boolean
  | null
  | array
  | lambda
  deriving DecidableEq

/-- The name of a kind in messages. -/
def Kind.name : Kind → String
  | .number => "Number"
  | .text => "String"
  | .boolean => "Boolean"
  | .null => "Null"
  | .array => "Array"
  | .lambda => "Lambda"

namespace Value

/-- The kind of a value. -/
def kind : Value → Kind
  | .number _ => .number
  | .text _ => .text
  | .boolean _ => .boolean
  | .null => .null
  | .array _ => .array
  | .lambda _ _ => .lambda

/-- The number a value is. -/
def asNumber? : Value → Option Float
  | .number x => some x
  | _ => none

/-- The truth value a value is. -/
def asBool? : Value → Option Bool
  | .boolean b => some b
  | _ => none

/-- The text a value is. -/
def asText? : Value → Option String
  | .text s => some s
  | _ => none

/-- The items of an array; any other value is a list of one. -/
def toList : Value → List Value
  | .array items => items
  | v => [v]

end Value

/-! ### Equality

Two values are equal when they have the same form and their numbers compare equal, so no value that
holds a NaN equals itself. Lambdas are compared by their parameters and the form of their bodies. -/

mutual

/-- Equality of values. -/
def Value.equal : Value → Value → Bool
  | .number x, .number y => x == y
  | .text s, .text t => s == t
  | .boolean a, .boolean b => a == b
  | .null, .null => true
  | .array xs, .array ys => Value.equalLists xs ys
  | .lambda ps e, .lambda qs f => ps == qs && Expr.equal e f
  | _, _ => false
termination_by structural v => v

/-- Equality of lists of values, item by item. -/
def Value.equalLists : List Value → List Value → Bool
  | [], [] => true
  | x :: xs, y :: ys => Value.equal x y && Value.equalLists xs ys
  | _, _ => false
termination_by structural vs => vs

/-- Equality of expressions. -/
def Expr.equal : Expr → Expr → Bool
  | .literal v, .literal w => Value.equal v w
  | .number x, .number y => x == y
  | .text s, .text t => s == t
  | .null, .null => true
  | .unary o e, .unary p f => o == p && Expr.equal e f
  | .binary l o r, .binary m p s => Expr.equal l m && o == p && Expr.equal r s
  | .variable a, .variable b => a == b
  | .call a es, .call b fs => a == b && Expr.equalLists es fs
  | .invoke e es, .invoke f fs => Expr.equal e f && Expr.equalLists es fs
  | .spread e, .spread f => Expr.equal e f
  | .array es, .array fs => Expr.equalLists es fs
  | .cast e t, .cast f u => Expr.equal e f && t == u
  | _, _ => false
termination_by structural e => e

/-- Equality of lists of expressions, item by item. -/
def Expr.equalLists : List Expr → List Expr → Bool
  | [], [] => true
  | e :: es, f :: fs => Expr.equal e f && Expr.equalLists es fs
  | _, _ => false
termination_by structural es => es

end

/-! ### What aggregates see

An aggregate opens arrays, whatever their depth. The numbers are added one by one to those that were
found before them; what is not null is counted array by array. -/

mutual

/-- The numbers in a value, the last one first, in front of those `found` before it. -/
def Value.collect : (found : List Float) → Value → List Float
  | found, .number x => x :: found
  | found, .array items => Value.collectAll found items
  | found, _ => found
termination_by structural _ v => v

/-- The numbers in the values of a list, the last one first, in front of those `found` before. -/
def Value.collectAll : (found : List Float) → List Value → List Float
  | found, [] => found
  | found, v :: vs => Value.collectAll (v.collect found) vs
termination_by structural _ vs => vs

end

/-- The numbers in a list of values, from left to right. -/
def Value.numbers (values : List Value) : List Float := (Value.collectAll [] values).reverse

mutual

/-- How much there is in a value besides null. -/
def Value.presence : Value → Nat
  | .null => 0
  | .array items => Value.countPresent items
  | _ => 1
termination_by structural v => v

/-- How much there is in the values of a list besides null. -/
def Value.countPresent : List Value → Nat
  | [] => 0
  | v :: vs => v.presence + Value.countPresent vs
termination_by structural vs => vs

end

/-! ### Leaves -/

mutual

/-- The leaves of a value from left to right: arrays are opened, anything else is a leaf. -/
def Value.leaves : Value → List Value
  | .array items => Value.leavesOfList items
  | v => [v]
termination_by structural v => v

/-- The leaves of the values of a list. -/
def Value.leavesOfList : List Value → List Value
  | [] => []
  | v :: vs => v.leaves ++ Value.leavesOfList vs
termination_by structural vs => vs

end

theorem Value.leavesOfList_eq_flatMap (values : List Value) :
    Value.leavesOfList values = values.flatMap Value.leaves := by
  induction values with
  | nil => simp [Value.leavesOfList]
  | cons v vs ih => simp [Value.leavesOfList, ih]

/-- How a lambda is written where text is wanted: its parameters without the body. -/
def lambdaText (parameters : List String) : String :=
  "LAMBDA(" ++ Text.joined parameters ++ ")"

end Formula
