import Formula.Fault
import Formula.Number.Exact

/-!
# Operators on values

What the operators make of values already computed. Equality is defined between any two values,
order only between two numbers, two texts or two truth values.
-/

namespace Formula

/-- The value of an operator with one operand. -/
def UnaryOp.apply (op : UnaryOp) (v : Value) : Except Fault Value :=
  match op, v with
  | .plus, .number x => .ok (.number x)
  | .minus, .number x => .ok (.number (-x))
  | .not, .boolean b => .ok (.boolean !b)
  | op, _ => .error (.evaluation (.unaryOperand op))

/-- How two values of one ordered kind compare, or `none` for values of kinds that have no order
between them. A number does not compare with a NaN. -/
def Value.compare? : Value → Value → Option (Option Ordering)
  | .number x, .number y => some (Number.compare? x y)
  | .text s, .text t => some (some (compare s t))
  | .boolean a, .boolean b => some (some (compare a.toNat b.toNat))
  | _, _ => none

namespace BinaryOp

/-- The orderings under which a comparison holds. -/
def admits : BinaryOp → Ordering → Bool
  | .lt, o => o.isLT
  | .le, o => o.isLE
  | .gt, o => o.isGT
  | .ge, o => o.isGE
  | _, _ => false

/-- The value of an arithmetic operator. -/
def calculate (f : Float → Float → Float) : Value → Value → Except Fault Value
  | .number x, .number y => .ok (.number (f x y))
  | _, _ => .error (.evaluation .arithmeticOperand)

/-- The value of a comparison by order; one that involves a NaN is false. -/
def order (op : BinaryOp) (a b : Value) : Except Fault Value :=
  match a.compare? b with
  | some o => .ok (.boolean (o.any op.admits))
  | none => .error (.evaluation (.incomparable a.kind b.kind))

/-- The value of a connective. -/
def connect (f : Bool → Bool → Bool) : Value → Value → Except Fault Value
  | .boolean a, .boolean b => .ok (.boolean (f a b))
  | _, _ => .error (.evaluation .logicalOperand)

/-- The value of an operator between two operands. -/
def apply (op : BinaryOp) (a b : Value) : Except Fault Value :=
  match op with
  | .add => calculate (· + ·) a b
  | .sub => calculate (· - ·) a b
  | .mul => calculate (· * ·) a b
  | .div => calculate (· / ·) a b
  | .mod => calculate Number.remainder a b
  | .pow => calculate Float.pow a b
  | .eq => .ok (.boolean (a.equal b))
  | .ne => .ok (.boolean !(a.equal b))
  | .lt | .le | .gt | .ge => order op a b
  | .and => connect (· && ·) a b
  | .or => connect (· || ·) a b

end BinaryOp

end Formula
