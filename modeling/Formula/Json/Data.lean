import Formula.Entries
import Formula.Json
import Formula.Json.Syntax
import Formula.Number.Numeral

/-!
# Data of JSON texts

The data that a JSON text stands for. Not every well-formed text stands for data: its numbers have
to be in range, its texts must not hold half of a surrogate pair, and its brackets are nested at most
`maxDepth` deep. Of members with the same key the last one counts.

A number keeps its exact value if it is a whole number of at most 64 bits. Any other is scaled in
doubles from as many leading digits as 64 bits hold, which may miss the nearest double.
-/

namespace Formula.Json

/-- How deep brackets may be nested. -/
def maxDepth : Nat := 127

/-! ### Numbers -/

/-- The greatest value of 64 bits. -/
def maxWord : Nat := Nat.pow 2 64 - 1

/-- Appends digits to a number as long as it fits in 64 bits; answers the digits that are left. -/
def absorb : Nat → List Char → Nat × List Char
  | n, [] => (n, [])
  | n, d :: ds =>
    let next := 10 * n + (d.toNat - '0'.toNat)
    if maxWord < next then (n, d :: ds) else absorb next ds

/-- `10 ^ e` as a double. -/
def powerOfTen (e : Nat) : Float := Float.ofScientific 1 false e

/-- Divides by `10 ^ 308` up to `steps` times, until nothing is left, and then by `10 ^ rest`. -/
def shrink : (steps : Nat) → (rest : Nat) → Float → Float
  | 0, rest, x => x / powerOfTen rest
  | steps + 1, rest, x => if x == 0 then x else shrink steps rest (x / powerOfTen 308)

/-- A significand scaled by a power of ten in doubles, unless the power alone is out of range. -/
def scale? (significand : Nat) (exponent : Int) : Option Float :=
  let x := significand.toFloat
  if 0 ≤ exponent then
    if 308 < exponent then if x == 0 then some x else none
    else some (x * powerOfTen exponent.toNat)
  else
    let e := exponent.natAbs
    let steps := (e - 1) / 308
    some (shrink steps (e - 308 * steps) x)

/-- The greatest exponent that is told apart from larger ones. -/
def maxExponent : Nat := Nat.pow 2 31 - 1

/-- The size of a numeral as a double, unless its exponent is out of range. -/
def Numeral.double? (n : Numeral) : Option Float :=
  let (significand, left) := absorb 0 n.whole
  let (significand, dropped) := absorb significand n.fraction
  let shift : Int := (left.length : Int) - (n.fraction.length - dropped.length)
  match n.exponent? with
  | none => scale? significand shift
  | some (negative, ds) =>
    let e := Formula.Number.ofDigits ds
    if maxExponent < e then
      if significand ≠ 0 ∧ !negative then none else some 0
    else scale? significand (if negative then shift - e else shift + e)

/-- The number that a numeral stands for, unless its exponent is out of range. -/
def Numeral.scaled? (n : Numeral) : Option Number :=
  let size := Formula.Number.ofDigits n.whole
  if n.fraction = [] ∧ n.exponent?.isNone ∧ size ≤ maxWord then
    if !n.negative then some (.whole size)
    else if size = 0 then some (.double (-0.0))
    else some (.whole (-size))
  else
    n.double?.map fun x => .double (if n.negative then -x else x)

/-- The number that a numeral stands for, unless it is out of range. -/
def Numeral.toNumber? (n : Numeral) : Option Number :=
  n.scaled?.filter (Formula.Number.isFinite ·.toFloat)

/-! ### Data -/

mutual

/-- The data that a text stands for, with brackets nested at most `depth` deep. -/
def Syntax.data? (depth : Nat) : Syntax → Option Json
  | .null => some .null
  | .boolean b => some (.boolean b)
  | .number n => n.toNumber?.map .number
  | .text content => content.map .text
  | .list items =>
    if depth = 0 then none else (Syntax.listData? (depth - 1) items).map .list
  | .object members =>
    if depth = 0 then none
    else (Syntax.memberData? (depth - 1) members).map fun ms =>
      .object (ms.foldl (fun sorted m => Entries.insert m.1 m.2 sorted) [])
termination_by structural s => s

/-- The data of the items of a list. -/
def Syntax.listData? (depth : Nat) : List Syntax → Option (List Json)
  | [] => some []
  | s :: rest => do
    let json ← s.data? depth
    let jsons ← Syntax.listData? depth rest
    some (json :: jsons)
termination_by structural items => items

/-- The data of the members of an object, in the order of the text. -/
def Syntax.memberData? (depth : Nat) : List (Option String × Syntax) →
    Option (List (String × Json))
  | [] => some []
  | m :: rest => do
    let member ← Syntax.pairData? depth m
    let members ← Syntax.memberData? depth rest
    some (member :: members)
termination_by structural members => members

/-- The data of one member. -/
def Syntax.pairData? (depth : Nat) : Option String × Syntax → Option (String × Json)
  | (key, s) => do
    let json ← s.data? depth
    let key ← key
    some (key, json)
termination_by structural m => m

end

end Formula.Json
