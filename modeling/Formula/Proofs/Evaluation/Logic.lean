import Formula.Proofs.Evaluation.Stock

/-!
# A logic of evaluations

The rules of the language are put together from a few pieces: answering, failing, going on, asking
the context, working in a scope and executing a host function. What is to hold of every evaluation
is therefore shown of these pieces only, as the rules of a `Logic`; that it then holds of the rules
of the language is shown here once.

A logic speaks of a family of evaluations at a time, so that it can compare evaluations with one
another, and of the world an evaluation starts in, which changes when a scope is opened.
-/

namespace Formula

open Evaluation

/-! ### Criteria evaluated in another way -/

/-- Applies a function, with a way of its own to evaluate the expressions of criteria. -/
def Function.applyWeighing (evaluate weigh : Evaluator) (f : Function) (arguments : List Expr) :
    Evaluation Value :=
  match f with
  | .rangeReducer r => do applyRange weigh r (← Expr.prepare evaluate arguments)
  | f => f.apply evaluate arguments

/-- The rules of the language, with a way of its own to evaluate the expressions of criteria. -/
def Expr.stepWeighing (lookup : String → Evaluation Value) (evaluate weigh : Evaluator) :
    Expr → Evaluation Value
  | .call name arguments => do
    match ← ofExcept ((← context).function? name) with
    | some f => f.applyWeighing evaluate weigh arguments
    | none => fail (.evaluation (.unknownFunction name))
  | e => e.step lookup evaluate

lemma Function.applyWeighing_self (evaluate : Evaluator) (f : Function) (arguments : List Expr) :
    f.applyWeighing evaluate evaluate arguments = f.apply evaluate arguments := by
  cases f <;> rfl

lemma Expr.stepWeighing_self (lookup : String → Evaluation Value) (evaluate : Evaluator)
    (e : Expr) : e.stepWeighing lookup evaluate evaluate = e.step lookup evaluate := by
  cases e
  case call name arguments =>
    simp only [stepWeighing, step]
    refine bind_congr fun c => bind_congr fun f? => ?_
    cases f? with
    | none => rfl
    | some f => exact f.applyWeighing_self evaluate arguments
  all_goals rfl

/-- An answer that an evaluation is given is one that was there. -/
lemma eq_ok_of_mapError {α : Type} {x : Except Fault α} {a : α}
    (h : x.mapError Failure.fault = .ok a) : x = .ok a := by
  cases x with
  | error fault => cases h
  | ok b =>
    cases h
    rfl

/-! ### Logics -/

/-- What is shown of families of evaluations, numbered by `ι`, that start in a world of `W`. -/
structure Logic (ι W : Type) extends Stock where
  /-- What is to be shown, and a property of the answers. -/
  Holds : W → {α : Type} → (ι → Evaluation α) → (α → Prop) → Prop
  /-- The contexts that may be met in a world. -/
  Seen : W → Context → Prop
  /-- The worlds that opening a scope with bindings leads to. -/
  Opens : W → List Binding → W → Prop
  /-- The functions that may be met. -/
  Knows : Function → Prop
  /-- The expressions that criteria may have. -/
  weighed : Expr → Prop
  pure : ∀ {w : W} {α : Type} {a : α} {Q : α → Prop}, Q a → Holds w (fun _ => Pure.pure a) Q
  fail : ∀ {w : W} {α : Type} {fault : Fault} {Q : α → Prop},
    Holds w (fun _ => Evaluation.fail fault) Q
  bind : ∀ {w : W} {α β : Type} {work : ι → Evaluation α} {next : ι → α → Evaluation β}
    {Q : α → Prop} {R : β → Prop}, Holds w work Q →
    (∀ a, Q a → Holds w (fun i => next i a) R) → Holds w (fun i => work i >>= next i) R
  ask : ∀ {w : W} {α : Type} {f : Context → Except Fault α} {Q : α → Prop},
    (∀ c d : Context, c.SameCapabilities d → f c = f d) →
    (∀ c a, Seen w c → f c = .ok a → Q a) →
    Holds w (fun _ => context >>= fun c => ofExcept (f c)) Q
  inScope : ∀ {w : W} {α : Type} {bindings : List Binding} {work : ι → Evaluation α}
    {Q : α → Prop}, (∀ b ∈ bindings, toStock.binding b) →
    (∀ w', Opens w bindings w' → Holds w' work Q) →
    Holds w (fun i => Evaluation.inScope bindings (work i)) Q
  execute : ∀ {w : W} {f : HostFunction} {values : List Value} {parameters : List Parameter},
    Knows (.host f) → Function.hostShape f values.length = .ok parameters →
    (∀ v ∈ values, value v) → Holds w (fun _ => Evaluation.execute f values) value
  known : ∀ {w : W} {c : Context} {name : String} {arguments : List Expr} {f : Function},
    Seen w c → expr (.call name arguments) → c.function? name = .ok (some f) → Knows f
  keeps : ∀ {f : Function}, Knows f → toStock.function f
  convert : ∀ {w : W} {c : Context} {v r : Value} {type : TypeName}, Seen w c → value v →
    c.convert v type = .ok r → value r
  parse : ∀ {w : W} {c : Context} {r : RangeReducer} {text : String} {e : Expr},
    Knows (.rangeReducer r) → Seen w c → c.parse text = .ok e → weighed e

namespace Logic

variable {ι W : Type} (L : Logic ι W) {w : W} {evaluate : ι → Evaluator}

/-- That the values of an expression can be relied upon. -/
def Evaluates (w : W) (evaluate : ι → Evaluator) (e : Expr) : Prop :=
  L.Holds w (fun i => evaluate i e) L.value

lemma ofExcept {α : Type} {x : Except Fault α} {Q : α → Prop} (h : ∀ a, x = .ok a → Q a) :
    L.Holds w (fun _ => Evaluation.ofExcept x) Q := by
  cases x with
  | ok a => exact L.pure (h a rfl)
  | error fault => exact L.fail

/-- What the context answers decides how it goes on. -/
lemma askThen {α β : Type} {f : Context → Except Fault α} {next : ι → α → Evaluation β}
    {Q : α → Prop} {R : β → Prop} (same : ∀ c d : Context, c.SameCapabilities d → f c = f d)
    (answer : ∀ c a, L.Seen w c → f c = .ok a → Q a)
    (h : ∀ a, Q a → L.Holds w (fun i => next i a) R) :
    L.Holds w (fun i => context >>= fun c => Evaluation.ofExcept (f c) >>= next i) R := by
  simpa only [bind_assoc] using L.bind (L.ask same answer) h

/-! ### Arguments -/

lemma evaluateAll {es : List Expr} (h : ∀ e ∈ es, L.Evaluates w evaluate e) :
    L.Holds w (fun i => Expr.evaluateAll (evaluate i) es) (fun vs => ∀ v ∈ vs, L.value v) := by
  induction es with
  | nil => exact L.pure (by simp)
  | cons e es ih =>
    refine L.bind (h e (by simp)) fun v hv => ?_
    refine L.bind (ih fun e he => h e (by simp [he])) fun vs hvs => ?_
    exact L.pure (by simpa using ⟨hv, hvs⟩)

lemma prepare {es : List Expr} (h : ∀ e ∈ es, L.Evaluates w evaluate e.argument) :
    L.Holds w (fun i => Expr.prepare (evaluate i) es) (fun vs => ∀ v ∈ vs, L.value v) := by
  induction es with
  | nil => exact L.pure (by simp)
  | cons e es ih =>
    have rest := ih fun e he => h e (by simp [he])
    have first := h e (by simp)
    cases e with
    | spread e =>
      refine L.bind first fun v hv => ?_
      cases v with
      | array items =>
        refine L.bind rest fun vs hvs => L.pure fun v hv' => ?_
        rcases List.mem_append.1 hv' with hv' | hv'
        · exact L.array.1 hv v hv'
        · exact hvs v hv'
      | _ => exact L.fail
    | _ =>
      refine L.bind first fun v hv => ?_
      refine L.bind rest fun vs hvs => ?_
      exact L.pure (by simpa using ⟨hv, hvs⟩)

lemma bindingName {e : Expr} {position : Nat} (h : L.Evaluates w evaluate e) :
    L.Holds w (fun i => Expr.bindingName (evaluate i) position e) (fun _ => True) := by
  cases e with
  | «variable» name => exact L.pure trivial
  | _ =>
    refine L.bind h fun v _ => ?_
    cases v with
    | text name => exact L.pure trivial
    | _ => exact L.fail

lemma bindingNames {es : List Expr} {position : Nat} (h : ∀ e ∈ es, L.Evaluates w evaluate e) :
    L.Holds w (fun i => Expr.bindingNames (evaluate i) position es) (fun _ => True) := by
  induction es generalizing position with
  | nil => exact L.pure trivial
  | cons e es ih =>
    refine L.bind (L.bindingName (h e (by simp))) fun name _ => ?_
    exact L.bind (ih fun e he => h e (by simp [he])) fun names _ => L.pure trivial

lemma letBindings {es : List Expr} {position : Nat} (he : ∀ e ∈ es, L.expr e)
    (h : ∀ e ∈ es, L.Evaluates w evaluate e) :
    L.Holds w (fun i => Expr.letBindings (evaluate i) position es)
      (fun bindings => ∀ b ∈ bindings, L.binding b) := by
  match es with
  | [] => exact L.pure (by simp)
  | [name] => exact L.bind (L.bindingName (h name (by simp))) fun _ _ => L.fail
  | name :: value :: rest =>
    refine L.bind (L.bindingName (h name (by simp))) fun name _ => ?_
    refine L.bind (letBindings (fun e m => he e (by simp [m])) fun e m => h e (by simp [m])) ?_
    intro bindings hb
    refine L.pure fun b mem => ?_
    rcases List.mem_cons.1 mem with rfl | mem
    · exact ⟨he value (by simp), rfl⟩
    · exact hb b mem

lemma lambdaParameters {es : List Expr} (h : ∀ e ∈ es, L.Evaluates w evaluate e) :
    L.Holds w (fun i => Expr.lambdaParameters (evaluate i) es) (fun _ => True) := by
  refine L.bind (L.bindingNames h) fun names _ => ?_
  refine L.askThen (fun c d same => by rw [same.policy]) (fun _ _ _ _ => trivial) ?_
  exact fun _ _ => L.pure trivial

/-! ### Criteria -/

/-- A criterion with an expression that criteria may have. -/
def criterion : Criterion → Prop
  | .compare _ right => L.weighed right
  | _ => True

lemma decision (v : Value) : L.Holds w (fun _ => Criterion.decision v) (fun _ => True) := by
  refine L.askThen (fun c d same => by rw [same.convert]) (fun _ _ _ _ => trivial) ?_
  intro v _
  cases v with
  | boolean b => exact L.pure trivial
  | _ => exact L.fail

lemma test {criterion : Criterion} (candidate : Value) (hc : L.criterion criterion)
    (h : ∀ e, L.weighed e → L.Evaluates w evaluate e) :
    L.Holds w (fun i => criterion.test (evaluate i) candidate) (fun _ => True) := by
  cases criterion with
  | equals v => exact L.bind (L.ofExcept fun _ _ => trivial) fun v _ => L.decision v
  | compare op right =>
    refine L.bind (h right hc) fun right _ => ?_
    exact L.bind (L.ofExcept fun _ _ => trivial) fun v _ => L.decision v
  | glob pattern =>
    refine L.askThen (fun c d same => same.candidateText candidate) (fun _ _ _ _ => trivial) ?_
    exact fun _ _ => L.pure trivial

lemma select {criterion : Criterion} {pairs : List (Value × Value)} (hc : L.criterion criterion)
    (h : ∀ e, L.weighed e → L.Evaluates w evaluate e) (hp : ∀ p ∈ pairs, L.value p.2) :
    L.Holds w (fun i => criterion.select (evaluate i) pairs) (fun vs => ∀ v ∈ vs, L.value v) := by
  induction pairs with
  | nil => exact L.pure (by simp)
  | cons pair rest ih =>
    obtain ⟨candidate, value⟩ := pair
    have others := ih fun p m => hp p (by simp [m])
    refine L.bind (L.test candidate hc h) fun kept _ => ?_
    cases kept with
    | true =>
      refine L.bind others fun vs hvs => L.pure ?_
      simpa using ⟨hp (candidate, value) (by simp), hvs⟩
    | false => exact others

lemma compiled {r : RangeReducer} {operand : Value} (known : L.Knows (.rangeReducer r))
    (c : Context) (criterion : Criterion) (seen : L.Seen w c)
    (h : Criterion.compile c operand = .ok criterion) : L.criterion criterion := by
  cases operand with
  | text s =>
    simp only [Criterion.compile] at h
    split at h
    · next op rest _ =>
      cases parsed : c.parse (String.ofList rest) with
      | error fault => simp [parsed, Bind.bind, Except.bind] at h
      | ok e =>
        simp only [parsed, Bind.bind, Except.bind, Except.ok.injEq] at h
        subst h
        exact L.parse known seen parsed
    · cases h
      trivial
  | _ =>
    cases h
    trivial

lemma reduceMatching {r : RangeReducer} {reduce : List Value → Evaluation Value}
    {candidates : List Value} {values? : Option (List Value)} {operand : Value}
    (known : L.Knows (.rangeReducer r)) (h : ∀ e, L.weighed e → L.Evaluates w evaluate e)
    (hv : ∀ v ∈ values?.getD candidates, L.value v)
    (reduces : ∀ kept, (∀ v ∈ kept, L.value v) → L.Holds w (fun _ => reduce kept) L.value) :
    L.Holds w (fun i => Criterion.reduceMatching (evaluate i) reduce candidates values? operand)
      L.value := by
  refine L.askThen (fun c d same => same.compile operand) (L.compiled known) fun criterion hc => ?_
  exact L.bind (L.select hc h fun p mem => hv p.2 (List.of_mem_zip mem).2) reduces

/-! ### Functions -/

/-- What is needed of the expressions that a scope may be opened for. -/
def EvaluatesInScopes (w : W) (evaluate : ι → Evaluator) : Prop :=
  ∀ bindings w', (∀ b ∈ bindings, L.binding b) → L.Opens w bindings w' →
    ∀ e, L.expr e → L.Evaluates w' evaluate e

lemma applyLet {es : List Expr} (he : ∀ e ∈ es, L.expr e)
    (h : ∀ e ∈ es, L.Evaluates w evaluate e) (scopes : L.EvaluatesInScopes w evaluate) :
    L.Holds w (fun i => Function.applyLet (evaluate i) es) L.value := by
  refine L.bind (L.ofExcept fun _ _ => trivial) fun _ _ => ?_
  split
  · exact L.fail
  · next body _ last => exact h body (List.mem_of_getLast? last)
  · next body last _ =>
    have mem := List.mem_of_getLast? last
    refine L.bind (L.letBindings (fun e m => he e (List.dropLast_subset _ m))
      fun e m => h e (List.dropLast_subset _ m)) fun bindings hb => ?_
    exact L.inScope hb fun w' opens => scopes bindings w' hb opens body (he body mem)

lemma applyLambda {es : List Expr} (he : ∀ e ∈ es, L.expr e)
    (h : ∀ e ∈ es, L.Evaluates w evaluate e) :
    L.Holds w (fun i => Function.applyLambda (evaluate i) es) L.value := by
  refine L.bind (L.ofExcept fun _ _ => trivial) fun _ _ => ?_
  split
  · exact L.fail
  · next body last =>
    refine L.bind (L.lambdaParameters fun e m => h e (List.dropLast_subset _ m)) fun names _ => ?_
    exact L.pure (L.lambda (he body (List.mem_of_getLast? last)))

lemma callLambda {parameters : List String} {body : Expr} {es : List Expr} (hb : L.expr body)
    (h : ∀ e ∈ es, L.Evaluates w evaluate e.argument) (scopes : L.EvaluatesInScopes w evaluate) :
    L.Holds w (fun i => Function.callLambda (evaluate i) parameters body es) L.value := by
  refine L.bind (L.prepare h) fun values hv => ?_
  split
  · have fresh : ∀ b ∈ Function.parameterBindings parameters values, L.binding b := by
      intro b mem
      simp only [Function.parameterBindings, List.mem_map] at mem
      obtain ⟨⟨⟨name, position⟩, v⟩, mem, rfl⟩ := mem
      exact hv v (List.of_mem_zip mem).2
    exact L.inScope fresh fun w' opens => scopes _ w' fresh opens body hb
  · exact L.fail

lemma applyRange {r : RangeReducer} {values : List Value} (known : L.Knows (.rangeReducer r))
    (hv : ∀ v ∈ values, L.value v) (h : ∀ e, L.weighed e → L.Evaluates w evaluate e) :
    L.Holds w (fun i => Function.applyRange (evaluate i) r values) L.value := by
  have items : ∀ (i : Nat) range, values[i]?.map Value.toList = some range →
      ∀ v ∈ range, L.value v := by
    intro i range found
    obtain ⟨v, at_i, rfl⟩ := Option.map_eq_some_iff.1 found
    exact Stock.toList (hv v (List.mem_of_getElem? at_i))
  refine L.bind (L.ofExcept fun _ _ => trivial) fun _ _ => ?_
  refine L.reduceMatching known h ?_ ?_
  · cases second : values[2]?.map Value.toList with
    | some range => exact items 2 range second
    | none =>
      cases first : values[0]?.map Value.toList with
      | some range => exact items 0 range first
      | none => simp
  · exact fun kept hk => L.ofExcept fun v => L.keeps known kept v hk

lemma applyHost {f : HostFunction} {values : List Value} (known : L.Knows (.host f))
    (hv : ∀ v ∈ values, L.value v) :
    L.Holds w (fun _ => Function.applyHost f values) L.value :=
  L.bind (L.ofExcept fun _ taken => taken) fun _ taken => L.execute known taken hv

lemma apply {weigh : ι → Evaluator} {f : Function} {es : List Expr} (known : L.Knows f)
    (he : ∀ e ∈ es, L.expr e) (h : ∀ e ∈ es, L.Evaluates w evaluate e)
    (arguments : ∀ e ∈ es, L.Evaluates w evaluate e.argument)
    (scopes : L.EvaluatesInScopes w evaluate)
    (criteria : ∀ r, L.Knows (.rangeReducer r) → ∀ e, L.weighed e → L.Evaluates w weigh e) :
    L.Holds w (fun i => f.applyWeighing (evaluate i) (weigh i) es) L.value := by
  have values := L.prepare arguments
  cases f with
  | letForm => exact L.applyLet he h scopes
  | lambdaForm => exact L.applyLambda he h
  | reducer r => exact L.bind values fun vs hv => L.ofExcept fun v => L.keeps known vs v hv
  | rangeReducer r => exact L.bind values fun vs hv => L.applyRange known hv (criteria r known)
  | host f => exact L.bind values fun vs hv => L.applyHost known hv

/-! ### The rules of the language -/

/-- What holds of the smaller expressions, of names, of the expressions of criteria, and of all
expressions in the scopes that may be opened, holds of an expression. -/
theorem stepWeighing {lookup : ι → String → Evaluation Value} {weigh : ι → Evaluator} {e : Expr}
    (he : L.expr e)
    (names : ∀ name, e = .variable name → L.Holds w (fun i => lookup i name) L.value)
    (smaller : ∀ p, sizeOf p < sizeOf e → L.expr p → L.Evaluates w evaluate p)
    (scopes : L.EvaluatesInScopes w evaluate)
    (criteria : ∀ r, L.Knows (.rangeReducer r) → ∀ e, L.weighed e → L.Evaluates w weigh e) :
    L.Holds w (fun i => e.stepWeighing (lookup i) (evaluate i) (weigh i)) L.value := by
  have known : ∀ p ∈ e.parts, L.expr p := fun p mem => L.part he mem
  have parts : ∀ p ∈ e.parts, L.Evaluates w evaluate p := fun p mem =>
    smaller p (Expr.sizeOf_lt_of_mem_parts mem) (known p mem)
  have arguments : ∀ p ∈ e.parts, L.Evaluates w evaluate p.argument := fun p mem =>
    smaller p.argument (Nat.lt_of_le_of_lt p.sizeOf_argument_le (Expr.sizeOf_lt_of_mem_parts mem))
      (Stock.argument (known p mem))
  cases e with
  | literal v => exact L.pure (L.literal he)
  | number x => exact L.pure (L.plain (by simp [Value.IsPlain, Value.kind]))
  | text s => exact L.pure (L.plain (by simp [Value.IsPlain, Value.kind]))
  | null => exact L.pure (L.plain (by simp [Value.IsPlain, Value.kind]))
  | unary op e =>
    exact L.bind (parts e (by simp [Expr.parts])) fun v _ => L.ofExcept fun _ => Stock.unary
  | binary l op r =>
    refine L.bind (parts l (by simp [Expr.parts])) fun a _ => ?_
    refine L.bind (parts r (by simp [Expr.parts])) fun b _ => ?_
    exact L.ofExcept fun _ => Stock.binary
  | «variable» name => exact names name rfl
  | array es =>
    exact L.bind (L.evaluateAll parts) fun vs hv => L.pure (L.array.2 hv)
  | cast e type =>
    refine L.bind (parts e (by simp [Expr.parts])) fun v hv => ?_
    exact L.ask (fun c d same => by rw [same.convert]) fun c r seen => L.convert seen hv
  | call name es =>
    refine L.askThen (Q := fun f? => ∀ f ∈ f?, L.Knows f) (fun c d same => same.function name)
      (fun c f? seen found f mem => L.known seen he (found.trans (by rw [mem]))) fun f? hf => ?_
    cases f? with
    | some f => exact L.apply (hf f rfl) known parts arguments scopes criteria
    | none => exact L.fail
  | invoke target es =>
    refine L.bind (parts target (by simp [Expr.parts])) fun v hv => ?_
    cases v with
    | lambda parameters body =>
      exact L.callLambda (L.called he hv) (fun e mem => arguments e (by simp [Expr.parts, mem]))
        scopes
    | _ => exact L.fail
  | spread e => exact L.fail

end Logic

end Formula
