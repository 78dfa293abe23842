/-!
# Doubles as exact numbers

A finite double is a whole number times a power of two. Truncation and the remainder of a division
are exact in that form, so both are computed on whole numbers and rounded back, where nothing is
left to round.
-/

namespace Formula.Number

/-- A double taken apart; a finite one is `± significand * 2 ^ exponent`. -/
inductive Parts where
  | nan
  | infinite (negative : Bool)
  | finite (negative : Bool) (significand : Nat) (exponent : Int)

/-- What a double stands for. -/
def parts (x : Float) : Parts :=
  match x.toModel.unpack with
  | .notANumber => .nan
  | .infinity .positive => .infinite false
  | .infinity .negative => .infinite true
  | .zero .positive => .finite false 0 0
  | .zero .negative => .finite true 0 0
  | .finite .positive m e _ => .finite false m e
  | .finite .negative m e _ => .finite true m e

/-- The double nearest to `± significand * 2 ^ exponent`. -/
def ofParts (negative : Bool) (significand : Nat) (exponent : Int) : Float :=
  .ofModel (.pack (.round .binary64 (if negative then .negative else .positive)
    significand exponent))

/-- The double that is no number. -/
def nan : Float := 0.0 / 0.0

/-- The double above all others. -/
def infinity : Float := 1.0 / 0.0

/-- A number without its fraction; the sign stays, also on zero. -/
def trunc (x : Float) : Float :=
  match parts x with
  | .finite negative m e =>
    if 0 ≤ e then x else ofParts negative (m >>> (-e).toNat) 0
  | _ => x

/-- The remainder of `x` by `y`: the exact rest with the sign of `x` and a size below that of
`y`. -/
def remainder (x y : Float) : Float :=
  match parts x, parts y with
  | .finite _ _ _, .infinite _ => x
  | .finite negative m e, .finite _ n f =>
    if n = 0 then nan
    else
      let unit := min e f
      ofParts negative ((m <<< (e - unit).toNat) % (n <<< (f - unit).toNat)) unit
  | _, _ => nan

/-- How two numbers compare; no number compares with what is none. -/
def compare? (x y : Float) : Option Ordering :=
  if x < y then some .lt
  else if y < x then some .gt
  else if x == y then some .eq
  else none

end Formula.Number
