import Formula.Context

/-!
# Purity

An expression is pure when its evaluation can execute no impure function. The verdict looks at every
part of the expression, whether or not evaluation comes to it, and follows names into the
expressions they are bound to. Calls of what an expression evaluates to count as impure, since the
callee is not known before.
-/

namespace Formula

mutual

/-- Whether an expression is pure, given the verdicts on names and on functions. The first part that
is impure or whose verdict fails decides. -/
def Expr.isPure (name : String → Bool) (function : String → Except Fault Bool) :
    Expr → Except Fault Bool
  | .literal _ => .ok true
  | .number _ => .ok true
  | .text _ => .ok true
  | .null => .ok true
  | .variable n => .ok (name n)
  | .unary _ e => e.isPure name function
  | .spread e => e.isPure name function
  | .cast e _ => e.isPure name function
  | .binary l _ r => do if ← l.isPure name function then r.isPure name function else .ok false
  | .array es => Expr.arePure name function es
  | .call f es => do if ← function f then Expr.arePure name function es else .ok false
  | .invoke _ _ => .ok false
termination_by structural e => e

/-- Whether all expressions of a list are pure. -/
def Expr.arePure (name : String → Bool) (function : String → Except Fault Bool) :
    List Expr → Except Fault Bool
  | [] => .ok true
  | e :: es => do if ← e.isPure name function then Expr.arePure name function es else .ok false
termination_by structural es => es

end

/-- A verdict that could not be reached counts against purity. -/
def verdict : Except Fault Bool → Bool
  | .ok b => b
  | .error _ => false

namespace Context

/-- Whether reading a name is pure. A name bound to an expression is as pure as that expression in
the view under the binding, whether or not its value is kept. -/
def isNamePure : Context → String → Bool
  | .bare, _ => true
  | .root _, _ => true
  | .layer _ below, name => below.isNamePure name
  | .scope parent, name => parent.isNamePure name
  | .binding b below, name =>
    if below.policy.namesEqual b.name name then
      match b.content with
      | .ready _ => true
      | .deferred e _ =>
        verdict (e.isPure (fun n => below.isNamePure n) below.isFunctionPure)
    else below.isNamePure name

/-- Whether an expression is pure in a context. -/
def isPure (context : Context) (e : Expr) : Except Fault Bool :=
  e.isPure context.isNamePure context.isFunctionPure

end Context

end Formula
