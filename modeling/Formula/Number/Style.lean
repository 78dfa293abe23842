import Formula.Number.Shortest

/-!
# Ways to write a number

A number is written by its shortest decimal. A `Style` fixes what is left open: where positional
notation ends, whether a whole number shows a fraction, and how an exponent is signed.
-/

namespace Formula.Number

/-- The decisions of a number format. -/
structure Style where
  /-- Whether a number with this many digits before the point is written without an exponent. -/
  positional : Int → Bool
  /-- Whether whole numbers in positional notation end in `.0`. -/
  pointZero : Bool
  /-- Whether an exponent that is not negative carries a plus sign. -/
  plusSign : Bool
  /-- Where a value halfway between two shortest decimals goes. -/
  tie : Tie

/-- Numbers as the language writes them: never an exponent, whole numbers without a fraction. -/
def Style.plain : Style := ⟨fun _ => true, false, false, .up⟩

/-- Numbers in the inspection form of values: an exponent below `1e-4` and from `1e16` on. -/
def Style.inspection : Style := ⟨fun p => decide (-3 ≤ p ∧ p ≤ 16), true, false, .up⟩

/-- Numbers in JSON output: a signed exponent below `1e-5` and from `1e16` on. -/
def Style.json : Style := ⟨fun p => decide (-4 ≤ p ∧ p ≤ 16), true, true, .even⟩

/-- The digits with the decimal point in its place. -/
def Digits.positional (pointZero : Bool) (d : Digits) : List Char :=
  if d.point ≤ 0 then
    '0' :: '.' :: (List.replicate (-d.point).toNat '0' ++ d.digits)
  else if d.digits.length ≤ d.point.toNat then
    d.digits ++ List.replicate (d.point.toNat - d.digits.length) '0' ++
      (if pointZero then ['.', '0'] else [])
  else
    d.digits.take d.point.toNat ++ '.' :: d.digits.drop d.point.toNat

/-- The digits with the point after the first one, and an exponent. -/
def Digits.scientific (plusSign : Bool) (d : Digits) : List Char :=
  let exponent := d.point - 1
  let sign := if exponent < 0 then ['-'] else if plusSign then ['+'] else []
  let fraction := if d.digits.length ≤ 1 then [] else '.' :: d.digits.drop 1
  d.digits.take 1 ++ fraction ++ 'e' :: sign ++ Nat.toDigits 10 exponent.natAbs

/-- A number written in a style. -/
def write (style : Style) (x : Float) : String :=
  match parts x with
  | .nan => "NaN"
  | .infinite negative => if negative then "-inf" else "inf"
  | .finite negative m e =>
    let body :=
      if m = 0 then if style.pointZero then ['0', '.', '0'] else ['0']
      else
        let d := shortest style.tie m e
        if style.positional d.point then d.positional style.pointZero
        else d.scientific style.plusSign
    String.ofList (if negative then '-' :: body else body)

end Formula.Number
