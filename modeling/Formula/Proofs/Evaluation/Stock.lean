import Formula.Expr.Evaluate
import Formula.Proofs.Context.Forget

/-!
# What evaluation works with

A `Stock` says which expressions and values may turn up in an evaluation: whatever is made of them
by the rules of the language is of the stock again. Of the context, apart from its names, an
expression sees settings and functions only; contexts with the same capabilities cannot be told
apart by them.
-/

namespace Formula

/-! ### Parts of expressions -/

/-- The expressions that an expression is made of. -/
def Expr.parts : Expr → List Expr
  | .unary _ e => [e]
  | .binary l _ r => [l, r]
  | .call _ es => es
  | .invoke e es => e :: es
  | .spread e => [e]
  | .array es => es
  | .cast e _ => [e]
  | _ => []

/-- What is evaluated of an argument. -/
def Expr.argument : Expr → Expr
  | .spread e => e
  | e => e

lemma Expr.sizeOf_lt_of_mem_parts {e p : Expr} (h : p ∈ e.parts) : sizeOf p < sizeOf e := by
  cases e <;> simp only [parts, List.not_mem_nil, List.mem_cons, or_false] at h
  case unary =>
    subst h
    simp only [unary.sizeOf_spec]
    omega
  case binary =>
    rcases h with rfl | rfl <;> simp only [binary.sizeOf_spec] <;> omega
  case call =>
    have smaller := List.sizeOf_lt_of_mem h
    simp only [call.sizeOf_spec]
    omega
  case invoke =>
    simp only [invoke.sizeOf_spec]
    rcases h with rfl | h
    · omega
    · have smaller := List.sizeOf_lt_of_mem h
      omega
  case spread =>
    subst h
    simp only [spread.sizeOf_spec]
    omega
  case array =>
    have smaller := List.sizeOf_lt_of_mem h
    simp only [array.sizeOf_spec]
    omega
  case cast =>
    subst h
    simp only [cast.sizeOf_spec]
    omega

lemma Expr.sizeOf_argument_le (e : Expr) : sizeOf e.argument ≤ sizeOf e := by
  cases e <;> simp [argument]

/-! ### Stocks -/

/-- Neither an array nor a lambda. -/
def Value.IsPlain (v : Value) : Prop := v.kind ≠ .array ∧ v.kind ≠ .lambda

/-- Expressions and values that evaluation does not lead out of. -/
structure Stock where
  /-- The expressions of the stock. -/
  expr : Expr → Prop
  /-- The values of the stock. -/
  value : Value → Prop
  plain : ∀ {v : Value}, v.IsPlain → value v
  array : ∀ {items : List Value}, value (.array items) ↔ ∀ v ∈ items, value v
  lambda : ∀ {parameters : List String} {body : Expr},
    expr body → value (.lambda parameters body)
  called : ∀ {target body : Expr} {arguments : List Expr} {parameters : List String},
    expr (.invoke target arguments) → value (.lambda parameters body) → expr body
  literal : ∀ {v : Value}, expr (.literal v) → value v
  part : ∀ {e p : Expr}, expr e → p ∈ e.parts → expr p

namespace Stock

/-- All expressions and values. -/
def all : Stock where
  expr _ := True
  value _ := True
  plain _ := trivial
  array := by simp
  lambda _ := trivial
  called _ _ := trivial
  literal _ := trivial
  part _ _ := trivial

variable (K : Stock)

/-- A binding of the stock that keeps no value yet. -/
def binding (b : Binding) : Prop :=
  match b.content with
  | .ready v => K.value v
  | .deferred e memo => K.expr e ∧ memo = none

/-- A function whose own work does not lead out of the stock. -/
def function : Function → Prop
  | .reducer r => ∀ values v, (∀ x ∈ values, K.value x) → r.reduce values = .ok v → K.value v
  | .rangeReducer r =>
    ∀ values v, (∀ x ∈ values, K.value x) → r.reducer.reduce [.array values] = .ok v → K.value v
  | _ => True

variable {K}

/-- No function leads out of a stock with all values. -/
lemma function_of_value (h : ∀ v, K.value v) (f : Function) : K.function f := by
  cases f with
  | letForm => trivial
  | lambdaForm => trivial
  | reducer r => exact fun _ v _ _ => h v
  | rangeReducer r => exact fun _ v _ _ => h v
  | host f => trivial

/-- No function leads out of what is all there is. -/
lemma function_all (f : Function) : all.function f := function_of_value (fun _ => trivial) f

lemma argument {e : Expr} (h : K.expr e) : K.expr e.argument := by
  cases e
  case spread => exact K.part h (by simp [Expr.parts, Expr.argument])
  all_goals exact h

lemma toList {v : Value} (h : K.value v) : ∀ x ∈ v.toList, K.value x := by
  cases v
  case array => exact K.array.1 h
  all_goals simpa [Value.toList] using h

lemma unary {op : UnaryOp} {v r : Value} (h : op.apply v = .ok r) : K.value r := by
  apply K.plain
  cases op <;> cases v <;> simp [UnaryOp.apply] at h <;> subst h <;>
    simp [Value.IsPlain, Value.kind]

lemma binary {op : BinaryOp} {a b r : Value} (h : op.apply a b = .ok r) : K.value r := by
  apply K.plain
  cases op <;> cases a <;> cases b <;>
    simp [BinaryOp.apply, BinaryOp.calculate, BinaryOp.order, BinaryOp.connect,
      Value.compare?] at h <;>
    subst h <;> simp [Value.IsPlain, Value.kind]

lemma number (x : Float) : K.value (.number x) := K.plain (by simp [Value.IsPlain, Value.kind])

lemma toFloat {v r : Value} (h : v.toFloat = .ok r) : K.value r := by
  unfold Value.toFloat at h
  split at h
  case h_2 =>
    split at h
    · cases h
      exact number _
    · cases h
  case h_5 => cases h
  all_goals
    cases h
    exact number _

lemma toInteger {v r : Value} (h : v.toInteger = .ok r) : K.value r := by
  unfold Value.toInteger at h
  split at h
  case h_5 => cases h
  all_goals
    cases h
    exact number _

/-- Conversion in the usual way does not lead out of a stock. -/
lemma cast {v r : Value} {type : TypeName} (hv : K.value v) (h : v.cast type = .ok r) :
    K.value r := by
  cases type with
  | float => exact toFloat h
  | integer => exact toInteger h
  | string =>
    cases h
    exact K.plain (by simp [Value.IsPlain, Value.kind])
  | boolean =>
    cases h
    exact K.plain (by simp [Value.IsPlain, Value.kind])
  | array =>
    cases h
    exact K.array.2 (Stock.toList hv)

lemma average {values : List Value} {v : Value} (h : Aggregate.average values = .ok v) :
    K.value v := by
  unfold Aggregate.average at h
  split at h
  · cases h
  · cases h
    exact number _

/-- The aggregates that are there without being added answer numbers. -/
lemma function_of_mem_builtins {f : Function} (mem : f ∈ Function.builtins) : K.function f := by
  have answers : ∀ r ∈ [Reducer.sum, .count, .counta, .average, .avg, .max, .min],
      ∀ values v, r.reduce values = .ok v → K.value v := by
    simp only [List.forall_mem_cons]
    refine ⟨?_, ?_, ?_, fun _ _ => average, fun _ _ => average, ?_, ?_, by simp⟩
    all_goals
      rintro values v ⟨⟩
      exact number _
  cases f with
  | letForm => trivial
  | lambdaForm => trivial
  | host f => trivial
  | reducer r =>
    exact fun values v _ => answers r (by simpa [Function.builtins] using mem) values v
  | rangeReducer r =>
    refine fun values v _ => answers r.reducer ?_ [.array values] v
    simp only [Function.builtins, List.mem_cons, List.not_mem_nil, or_false, reduceCtorEq,
      false_or, Function.rangeReducer.injEq] at mem
    rcases mem with rfl | rfl | rfl | rfl | rfl | rfl <;> simp

end Stock

/-! ### Contexts that offer the same -/

/-- Two contexts that answer alike whatever an expression asks of a context, names apart. -/
structure Context.SameCapabilities (c d : Context) : Prop where
  policy : c.policy = d.policy
  separators : c.separators = d.separators
  parse : c.parse = d.parse
  convert : c.convert = d.convert
  function : ∀ name, c.function? name = d.function? name

namespace Context.SameCapabilities

variable {c d : Context}

@[refl]
lemma refl (c : Context) : c.SameCapabilities c := ⟨rfl, rfl, rfl, rfl, fun _ => rfl⟩

lemma layer (h : c.SameCapabilities d) (l : Layer) :
    (Context.layer l c).SameCapabilities (.layer l d) where
  policy := by simp only [Context.policy, h.policy]
  separators := by simp only [Context.separators, h.separators]
  parse := by
    funext text
    simp only [Context.parse, h.parse]
  convert := by
    funext v type
    simp only [Context.convert, h.convert]
  function := h.function

lemma scope (h : c.SameCapabilities d) : (Context.scope c).SameCapabilities (.scope d) :=
  ⟨h.policy, h.separators, h.parse, h.convert, h.function⟩

/-- What a binding holds is no capability. -/
lemma binding {b b' : Binding} (h : c.SameCapabilities d) (name : b.name = b'.name) :
    (Context.binding b c).SameCapabilities (.binding b' d) where
  policy := h.policy
  separators := h.separators
  parse := h.parse
  convert := h.convert
  function _ := by simp only [Context.function?, name, h.policy, h.function]

lemma symm (h : c.SameCapabilities d) : d.SameCapabilities c :=
  ⟨h.policy.symm, h.separators.symm, h.parse.symm, h.convert.symm, fun name =>
    (h.function name).symm⟩

lemma compile (h : c.SameCapabilities d) (operand : Value) :
    Criterion.compile c operand = Criterion.compile d operand := by
  cases operand <;> simp [Criterion.compile, h.parse, h.policy]

mutual

lemma candidateText (h : c.SameCapabilities d) (v : Value) :
    Criterion.candidateText c v = Criterion.candidateText d v := by
  match v with
  | .array items => simp only [Criterion.candidateText, candidateTexts h items]
  | .number x => simp only [Criterion.candidateText, h.convert, h.separators]
  | .text s => simp only [Criterion.candidateText, h.convert]
  | .boolean b => simp only [Criterion.candidateText, h.convert]
  | .null => simp only [Criterion.candidateText, h.convert]
  | .lambda parameters body => simp only [Criterion.candidateText, h.convert]

lemma candidateTexts (h : c.SameCapabilities d) (values : List Value) :
    Criterion.candidateTexts c values = Criterion.candidateTexts d values := by
  match values with
  | [] => rfl
  | v :: vs => simp only [Criterion.candidateTexts, candidateText h v, candidateTexts h vs]

end

end Context.SameCapabilities

end Formula
