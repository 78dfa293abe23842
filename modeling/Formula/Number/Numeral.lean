import Formula.Number.Exact

/-!
# Reading numbers

A numeral is an optional sign, digits with at most one point among, before or after them, and an
optional exponent; the words `inf`, `infinity` and `nan` stand for the values that have no digits.
It reads as the double nearest to what it says.
-/

namespace Formula.Number

/-- The value of a row of decimal digits. -/
def ofDigits (ds : List Char) : Nat := ds.foldl (fun n c => 10 * n + (c.toNat - '0'.toNat)) 0

/-- Splits a sign off a numeral. -/
def splitSign : List Char → Bool × List Char
  | '-' :: cs => (true, cs)
  | '+' :: cs => (false, cs)
  | cs => (false, cs)

/-- The exponent part of a numeral, which has to be the whole text: empty, or a marker, an
optional sign and digits. -/
def exponent? : List Char → Option Int
  | [] => some 0
  | c :: cs =>
    if c = 'e' ∨ c = 'E' then
      let (negative, ds) := splitSign cs
      if ds ≠ [] ∧ ds.all Char.isDigit then
        some (if negative then -(ofDigits ds : Int) else ofDigits ds)
      else none
    else none

/-- The number `whole.fraction * 10 ^ exponent` as a double. -/
def ofDecimal (whole fraction : List Char) (exponent : Int) : Float :=
  let scale := exponent - fraction.length
  Float.ofScientific (ofDigits (whole ++ fraction)) (decide (scale < 0)) scale.natAbs

/-- A numeral of digits, without a sign. -/
def readDigits? (cs : List Char) : Option Float :=
  let (whole, rest) := cs.span Char.isDigit
  let (fraction, rest) :=
    match rest with
    | '.' :: rest => rest.span Char.isDigit
    | rest => ([], rest)
  if whole = [] ∧ fraction = [] then none
  else (exponent? rest).map (ofDecimal whole fraction)

/-- The double that a numeral stands for. -/
def read? (cs : List Char) : Option Float :=
  let (negative, body) := splitSign cs
  let word := body.map Char.toLower
  let size :=
    if word = ['n', 'a', 'n'] then some nan
    else if word = ['i', 'n', 'f'] ∨ word = ['i', 'n', 'f', 'i', 'n', 'i', 't', 'y'] then
      some infinity
    else readDigits? body
  size.map fun x => if negative then -x else x

end Formula.Number
