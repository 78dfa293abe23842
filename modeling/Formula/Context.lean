import Formula.Cast
import Formula.Expr.Parse
import Formula.Name
import Formula.Registry

/-!
# Contexts

A context is what an expression is evaluated in: a root with variables, functions and settings, and
on top of it scopes that bind names and layers with which a host changes single capabilities. A
scope is opened empty and its bindings are put on one by one, so what lies under a binding is the
view in which its expression is evaluated: the bindings declared before it and the enclosing
context. The value of a binding is kept in the binding once it is known to stay the same.
-/

namespace Formula

/-! ### Roots -/

/-- Variables and their values; a name occurs once. -/
abbrev Variables := List (String × Value)

/-- Gives a variable a value, in place of the one it had. -/
def Variables.set (vs : Variables) (name : String) (value : Value) : Variables :=
  (name, value) :: vs.filter fun v => v.1 != name

/-- The bottom of a context. -/
structure Root where
  vars : Variables := []
  registry : Registry := .builtins
  config : Config := {}

/-- The value of a variable. -/
def Root.lookup (root : Root) (name : String) : Except Fault Value :=
  match root.vars.find? fun v => root.config.policy.namesEqual v.1 name with
  | some v => .ok v.2
  | none => .error (.unresolved name)

/-! ### Scopes and layers -/

/-- What a binding holds. -/
inductive Content where
  | ready (value : Value)
  /-- An expression to be evaluated on the first look-up, and its value if that is kept. -/
  | deferred (expr : Expr) (memo : Option Value)

/-- A name with what it stands for. -/
structure Binding where
  name : String
  /-- The position of the argument that introduced the name. -/
  position : Nat
  content : Content

/-- The capabilities that a host changes. Whatever is left alone is answered by the context
below. -/
structure Layer where
  policy? : Option CasePolicy := none
  separators? : Option Separators := none
  /-- The way to read formula text, made from the way below. -/
  parse : (String → Except Fault Expr) → String → Except Fault Expr := id
  /-- The way to convert values, made from the way below. -/
  convert : (Value → TypeName → Except Fault Value) → Value → TypeName → Except Fault Value := id

/-- What an expression is evaluated in. -/
inductive Context where
  /-- A root without variables and functions. -/
  | bare
  | root (root : Root)
  | layer (layer : Layer) (below : Context)
  /-- A scope just opened. -/
  | scope (parent : Context)
  /-- One more binding in the innermost scope. -/
  | binding (binding : Binding) (below : Context)

namespace Context

/-- How names and patterns compare letters. -/
def policy : Context → CasePolicy
  | .bare => .sensitive
  | .root r => r.config.policy
  | .layer l below => l.policy?.getD below.policy
  | .scope parent => parent.policy
  | .binding _ below => below.policy

/-- The separators of numbers. -/
def separators : Context → Separators
  | .bare => {}
  | .root r => r.config.separators
  | .layer l below => l.separators?.getD below.separators
  | .scope parent => parent.separators
  | .binding _ below => below.separators

/-- How many scopes lie above the root. -/
def depth : Context → Nat
  | .bare => 0
  | .root _ => 0
  | .layer _ below => below.depth
  | .scope parent => parent.depth + 1
  | .binding _ below => below.depth

/-- The expression that a formula text is. -/
def parse : Context → String → Except Fault Expr
  | .bare => Expr.parse
  | .root _ => Expr.parse
  | .layer l below => l.parse below.parse
  | .scope parent => parent.parse
  | .binding _ below => below.parse

/-- A value converted to a type. -/
def convert : Context → Value → TypeName → Except Fault Value
  | .bare => Value.cast
  | .root _ => Value.cast
  | .layer l below => l.convert below.convert
  | .scope parent => parent.convert
  | .binding _ below => below.convert

/-- The function under a name, if there is one. A name that is bound is no function's name. -/
def function? : Context → String → Except Fault (Option Function)
  | .bare, _ => .ok none
  | .root r, name => .ok (r.registry.get? name)
  | .layer _ below, name => below.function? name
  | .scope parent, name => parent.function? name
  | .binding b below, name =>
    if below.policy.namesEqual b.name name then .error (.naming (.namedValue name))
    else below.function? name

/-- Whether the function under a name is pure. -/
def isFunctionPure : Context → String → Except Fault Bool
  | .bare, name => .error (.evaluation (.unknownFunction name))
  | .root r, name =>
    match r.registry.get? name with
    | some f => .ok f.isPure
    | none => .error (.evaluation (.unknownFunction name))
  | .layer _ below, name => below.isFunctionPure name
  | .scope parent, name => parent.isFunctionPure name
  | .binding b below, name =>
    if below.policy.namesEqual b.name name then .error (.naming (.namedValue name))
    else below.isFunctionPure name

/-- Puts bindings on a context, the first one lowest. -/
def bind (context : Context) (bindings : List Binding) : Context :=
  bindings.foldl (fun c b => .binding b c) context

/-- Opens a scope with bindings, provided there is room for it and the names can be bound. -/
def push (context : Context) (bindings : List Binding) : Except Fault Context :=
  if maxScopeDepth < context.depth + 1 then .error (.evaluation .nestingTooDeep)
  else do
    validateNames context.policy (bindings.map fun b => (b.name, b.position))
    .ok (context.scope.bind bindings)

/-- What lies under the innermost scope. -/
def leave : Context → Context
  | .binding _ below => below.leave
  | .scope parent => parent
  | c => c

/-! ### What a scope leaves alone -/

@[simp] theorem policy_bind (context : Context) (bindings : List Binding) :
    (context.bind bindings).policy = context.policy := by
  induction bindings generalizing context with
  | nil => rfl
  | cons b bs ih => exact ih (.binding b context)

@[simp] theorem depth_bind (context : Context) (bindings : List Binding) :
    (context.bind bindings).depth = context.depth := by
  induction bindings generalizing context with
  | nil => rfl
  | cons b bs ih => exact ih (.binding b context)

@[simp] theorem leave_bind (context : Context) (bindings : List Binding) :
    (context.bind bindings).leave = context.leave := by
  induction bindings generalizing context with
  | nil => rfl
  | cons b bs ih => exact ih (.binding b context)

/-- A scope can be opened when there is room for it and its names can be bound. -/
theorem push_eq_ok_iff {context inner : Context} {bindings : List Binding} :
    context.push bindings = .ok inner ↔
      context.depth < maxScopeDepth ∧
      validateNames context.policy (bindings.map fun b => (b.name, b.position)) = .ok () ∧
      context.scope.bind bindings = inner := by
  unfold push
  split
  · next full =>
    constructor
    · intro h
      cases h
    · intro h
      omega
  · next room =>
    cases validateNames context.policy (bindings.map fun b => (b.name, b.position)) with
    | error fault => simp [Bind.bind, Except.bind]
    | ok _ =>
      simp only [Bind.bind, Except.bind, Except.ok.injEq, true_and]
      constructor
      · intro h
        exact ⟨by omega, h⟩
      · intro h
        exact h.2

/-- Leaving a scope just opened leads back to where it was opened. -/
theorem leave_of_push {context inner : Context} {bindings : List Binding}
    (h : context.push bindings = .ok inner) : inner.leave = context := by
  obtain ⟨_, _, rfl⟩ := push_eq_ok_iff.1 h
  simp [leave]

end Context

end Formula
