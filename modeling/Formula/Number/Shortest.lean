import Formula.Number.Exact

/-!
# Shortest decimals

The decimal with the fewest digits among those that read back as a given double, and of those the
nearest one. The reals that round to `m * 2 ^ q` form an interval whose ends belong to it exactly
when `m` is even. Counting digits upwards, the first decimal grid with a point in that interval is
found by looking at the two neighbours of the value on the grid, in exact whole-number arithmetic.
-/

namespace Formula.Number

/-- Where a value halfway between two decimals goes. -/
inductive Tie where
  | up
  | even

/-- The decimal `0.d₁d₂… * 10 ^ point` by its digits. -/
structure Digits where
  /-- The digits, without zeros at either end. -/
  digits : List Char
  /-- How many of the digits stand before the decimal point. -/
  point : Int

/-- The doubles' interval and the value itself over one denominator. -/
structure Interval where
  /-- Numerator of the lower end. -/
  low : Nat
  value : Nat
  /-- Numerator of the upper end. -/
  high : Nat
  /-- The common denominator. -/
  unit : Nat
  /-- Whether the ends themselves belong to the interval. -/
  closed : Bool

/-- The reals that round to `m * 2 ^ q`. The gap below is half as wide when `m` is the smallest
significand of its size. -/
def Interval.of (m : Nat) (q : Int) : Interval :=
  let scale := Nat.pow 2 (q - 2).toNat
  let below := if m = Nat.pow 2 52 ∧ -1074 < q then 1 else 2
  { low := (4 * m - below) * scale
    value := 4 * m * scale
    high := (4 * m + 2) * scale
    unit := Nat.pow 2 (2 - q).toNat
    closed := m % 2 = 0 }

/-- Whether the decimal `d * 10 ^ g` lies in the interval. -/
def Interval.holds (i : Interval) (d : Nat) (g : Int) : Bool :=
  let point := d * Nat.pow 10 g.toNat * i.unit
  let low := i.low * Nat.pow 10 (-g).toNat
  let high := i.high * Nat.pow 10 (-g).toNat
  if i.closed then decide (low ≤ point ∧ point ≤ high) else decide (low < point ∧ point < high)

/-- The count of digits before the point of `num / den`, negative where zeros follow the point. -/
def magnitude (num den : Nat) : Int :=
  if den ≤ num then (Nat.toDigits 10 (num / den)).length
  else 1 - ((Nat.toDigits 10 ((den - 1) / num)).length : Int)

/-- The neighbour of the value on the grid of step `10 ^ g` to be written, if either of the two
lies in the interval. -/
def Interval.onGrid? (tie : Tie) (i : Interval) (g : Int) : Option Nat :=
  let num := i.value * Nat.pow 10 (-g).toNat
  let den := i.unit * Nat.pow 10 g.toNat
  let d := num / den
  match i.holds d g, i.holds (d + 1) g with
  | false, false => none
  | true, false => some d
  | false, true => some (d + 1)
  | true, true =>
    match compare (2 * (num % den)) den with
    | .lt => some d
    | .gt => some (d + 1)
    | .eq =>
      match tie with
      | .up => some (d + 1)
      | .even => some (if d % 2 = 0 then d else d + 1)

/-- Tries `count` grids of growing fineness, the first with `used + 1` digits. -/
def Interval.search (tie : Tie) (i : Interval) (point : Int) : (count used : Nat) → Nat × Int
  | 0, used =>
    (i.value * Nat.pow 10 (used - point).toNat / (i.unit * Nat.pow 10 (point - used).toNat),
      point - used)
  | count + 1, used =>
    let g := point - (used + 1)
    match i.onGrid? tie g with
    | some d => (d, g)
    | none => i.search tie point count (used + 1)

/-- Drops the zeros at the end of a list of digits. -/
def dropTrailingZeros (ds : List Char) : List Char := (ds.reverse.dropWhile (· == '0')).reverse

/-- The shortest decimal that reads back as `m * 2 ^ q`, for a significand above zero. Seventeen
digits always suffice. -/
def shortest (tie : Tie) (m : Nat) (q : Int) : Digits :=
  let i := Interval.of m q
  let (d, g) := i.search tie (magnitude i.value i.unit) 17 0
  let ds := Nat.toDigits 10 d
  ⟨dropTrailingZeros ds, g + ds.length⟩

end Formula.Number
