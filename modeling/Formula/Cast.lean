import Formula.Fault
import Formula.Number.Numeral
import Formula.Number.Style
import Formula.Text.Blank

/-!
# Casts

Conversion of a value to another type. Every value has a text, a truth value and an array form;
numbers come from numbers, truth values, null and text.
-/

namespace Formula

mutual

/-- A value as text. -/
def Value.toText : Value → String
  | .text s => s
  | .number x => Number.write .plain x
  | .boolean b => if b then "TRUE" else "FALSE"
  | .null => ""
  | .array items => Text.bracketed (Value.toTexts items)
  | .lambda parameters _ => lambdaText parameters
termination_by structural v => v

/-- The values of a list as texts. -/
def Value.toTexts : List Value → List String
  | [] => []
  | v :: vs => v.toText :: Value.toTexts vs
termination_by structural vs => vs

end

/-- The longest start of a text made of a sign, digits and one point, as a sign, the digits before
the point and those behind it. -/
def numericStart (cs : List Char) : Bool × List Char × List Char :=
  let (negative, body) := Number.splitSign cs
  let (whole, rest) := body.span Char.isDigit
  match rest with
  | '.' :: rest => (negative, whole, rest.takeWhile Char.isDigit)
  | _ => (negative, whole, [])

/-- The number that a text starts with, zero if it starts with none. -/
def leadingNumber (cs : List Char) : Float :=
  match numericStart cs with
  | (_, [], []) => 0
  | (negative, whole, fraction) =>
    let size := Number.ofDecimal whole fraction 0
    if negative then -size else size

namespace Value

/-- Whether a value counts as true. -/
def toBool : Value → Bool
  | .boolean b => b
  | .number x => x != 0
  | .text s => Text.trim s.toList != []
  | .array items => !items.isEmpty
  | .null => false
  | .lambda _ _ => true

/-- The value cast to a number. A text has to be a numeral as a whole. -/
def toFloat (v : Value) : Except Fault Value :=
  match v with
  | .number x => .ok (.number x)
  | .text s =>
    match Number.read? (Text.trim s.toList) with
    | some x => .ok (.number x)
    | none => .error (.evaluation (.uncastable .text .float))
  | .boolean b => .ok (.number (if b then 1 else 0))
  | .null => .ok (.number 0)
  | v => .error (.evaluation (.uncastable v.kind .float))

/-- The value cast to a number without fraction. Of a text, the number it starts with counts. -/
def toInteger (v : Value) : Except Fault Value :=
  match v with
  | .number x => .ok (.number (Number.trunc x))
  | .text s => .ok (.number (Number.trunc (leadingNumber (Text.trim s.toList))))
  | .boolean b => .ok (.number (if b then 1 else 0))
  | .null => .ok (.number 0)
  | v => .error (.evaluation (.uncastable v.kind .integer))

/-- The value cast to a type. -/
def cast (v : Value) : TypeName → Except Fault Value
  | .float => v.toFloat
  | .integer => v.toInteger
  | .string => .ok (.text v.toText)
  | .boolean => .ok (.boolean v.toBool)
  | .array => .ok (.array v.toList)

end Value

end Formula
