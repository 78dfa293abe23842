import Formula.Fault
import Formula.Number.Exact

/-!
# Aggregates

What an aggregate makes of a list of values. Arrays are opened, whatever their depth; sums, counts,
averages and extremes look at the numbers among the leaves, `present` at all leaves but null.
-/

namespace Formula.Aggregate

/-- The sum of numbers, added from the left to negative zero. -/
def total (xs : List Float) : Float := xs.foldl (· + ·) (-0.0)

/-- The greater of two numbers; a NaN gives way. -/
def greater (x y : Float) : Float :=
  if x.isNaN then y else if y.isNaN then x else if x < y then y else x

/-- The lesser of two numbers; a NaN gives way. -/
def lesser (x y : Float) : Float :=
  if x.isNaN then y else if y.isNaN then x else if y < x then y else x

/-- The extreme of numbers under a choice between two, zero if there are none. -/
def extreme (choose : Float → Float → Float) : List Float → Float
  | [] => 0
  | x :: xs => xs.foldl choose x

/-- The sum of the numbers. -/
def sum (values : List Value) : Except Fault Value :=
  .ok (.number (total (Value.numbers values)))

/-- How many numbers there are. -/
def count (values : List Value) : Except Fault Value :=
  .ok (.number (Value.numbers values).length.toFloat)

/-- How many leaves there are besides null. -/
def present (values : List Value) : Except Fault Value :=
  .ok (.number (Value.countPresent values).toFloat)

/-- The mean of the numbers; there has to be one. -/
def average (values : List Value) : Except Fault Value :=
  match Value.numbers values with
  | [] => .error (.evaluation .emptyAverage)
  | xs => .ok (.number (total xs / xs.length.toFloat))

/-- The greatest number. -/
def max (values : List Value) : Except Fault Value :=
  .ok (.number (extreme greater (Value.numbers values)))

/-- The least number. -/
def min (values : List Value) : Except Fault Value :=
  .ok (.number (extreme lesser (Value.numbers values)))

end Formula.Aggregate
