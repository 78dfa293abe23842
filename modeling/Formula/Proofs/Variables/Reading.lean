import Formula.Proofs.Purity.Verdict
import Formula.Proofs.Termination.Convergence
import Mathlib.Logic.Relation

/-!
# The variables that a formula reads

A formula reads no variable that does not occur in it. Where a formula and the variables hold no
lambda to begin with, every lambda that turns up was made of a part of the formula, and every
binding holds a value or another part of it. Two evaluations over roots that agree on the variables
that occur therefore go the same way, through the same scopes with the same bindings.
-/

namespace Formula

open Evaluation

/-! ### The parts of one expression -/

/-- That an expression is another one or stands somewhere in it. -/
def Expr.HasPart : Expr → Expr → Prop := Relation.ReflTransGen fun e p => p ∈ e.parts

/-- What has the expression and is closed under parts has all that stands in the expression. -/
lemma Expr.HasPart.of_closed {e p : Expr} {P : Expr → Prop} (h : e.HasPart p) (he : P e)
    (closed : ∀ q, P q → ∀ p ∈ q.parts, P p) : P p := by
  induction h with
  | refl => exact he
  | tail _ mem ih => exact closed _ ih _ mem

/-- That a value is no lambda and holds none. -/
def Value.IsFirstOrder (v : Value) : Prop := ∀ leaf ∈ v.leaves, leaf.kind ≠ .lambda

/-- The parts of an expression, and the values whose lambdas have such parts as bodies. -/
def Stock.partsOf (e : Expr) (literals : ∀ v, e.HasPart (.literal v) → v.IsFirstOrder) :
    Stock where
  expr p := e.HasPart p
  value v := ∀ parameters body, .lambda parameters body ∈ v.leaves → e.HasPart body
  plain {v} plain parameters body mem := by
    cases v with
    | array items => exact absurd rfl plain.1
    | lambda ps b => exact absurd rfl plain.2
    | _ => cases List.mem_singleton.1 mem
  array {items} := by
    simp only [Value.leaves, Value.leavesOfList_eq_flatMap, List.mem_flatMap]
    constructor
    · exact fun h v mem parameters body leaf => h parameters body ⟨v, mem, leaf⟩
    · rintro h parameters body ⟨v, mem, leaf⟩
      exact h v mem parameters body leaf
  lambda he parameters body mem := by
    cases List.mem_singleton.1 mem
    exact he
  called _ hv := hv _ _ (List.mem_singleton.2 rfl)
  literal he _ _ mem := absurd rfl (literals _ he _ mem)
  part he mem := he.tail mem

/-- A value that holds no lambda is of every such stock. -/
lemma Stock.value_partsOf {e : Expr} {literals : ∀ v, e.HasPart (.literal v) → v.IsFirstOrder}
    {v : Value} (h : v.IsFirstOrder) : (Stock.partsOf e literals).value v :=
  fun _ _ mem => absurd rfl (h _ mem)

namespace Stock

variable {K : Stock}

/-- A binding of the stock, with the value that it keeps. -/
def holding (K : Stock) (b : Binding) : Prop :=
  match b.content with
  | .ready v => K.value v
  | .deferred e memo => K.expr e ∧ ∀ v ∈ memo, K.value v

lemma holding_of_binding {b : Binding} (h : K.binding b) : K.holding b := by
  obtain ⟨_, _, content⟩ := b
  cases content with
  | ready v => exact h
  | deferred e memo => exact ⟨h.1, by simp [h.2]⟩

lemma holding_settle {b : Binding} {below : Context} {outcome : Except Failure Value}
    (h : K.holding b) (good : ∀ v, outcome = .ok v → K.value v) :
    K.holding (b.settle below outcome) := by
  unfold Binding.settle
  split
  · next e _ v content =>
    split
    · simp only [holding, content] at h ⊢
      exact ⟨h.1, by simpa using good v rfl⟩
    · exact h
  · exact h

end Stock

/-! ### Roots that agree on names -/

/-- That two roots have the same functions and settings, and hold the same under every name of a
stock. -/
structure Root.AgreesOn (K : Stock) (r r' : Root) : Prop where
  registry : r'.registry = r.registry
  config : r'.config = r.config
  lookup : ∀ name, K.expr (.variable name) → r'.lookup name = r.lookup name

/-- That two contexts have the same scopes, with bindings of a stock, on two roots. -/
inductive Context.Twins (K : Stock) (r r' : Root) : Context → Context → Prop
  | root : Twins K r r' (.root r) (.root r')
  | scope {c d : Context} (parent : Twins K r r' c d) : Twins K r r' (.scope c) (.scope d)
  | binding {b : Binding} {c d : Context} (holding : K.holding b) (below : Twins K r r' c d) :
      Twins K r r' (.binding b c) (.binding b d)

namespace Context.Twins

variable {K : Stock} {r r' : Root} {c d : Context}

lemma bind (h : Twins K r r' c d) {bindings : List Binding} (fresh : ∀ b ∈ bindings, K.binding b) :
    Twins K r r' (c.bind bindings) (d.bind bindings) := by
  induction bindings generalizing c d with
  | nil => exact h
  | cons b bs ih =>
    have first := Stock.holding_of_binding (fresh b (by simp))
    exact ih (.binding first h) fun b mem => fresh b (by simp [mem])

lemma leave (h : Twins K r r' c d) : Twins K r r' c.leave d.leave := by
  induction h with
  | root => exact .root
  | scope parent _ => exact parent
  | binding _ _ ih => exact ih

lemma registry (h : Twins K r r' c d) : c.registry = r.registry := by
  induction h with
  | root => rfl
  | scope _ ih => exact ih
  | binding _ _ ih => exact ih

lemma convert (h : Twins K r r' c d) : c.convert = Value.cast := by
  induction h with
  | root => rfl
  | scope _ ih => exact ih
  | binding _ _ ih => exact ih

lemma depth_eq (h : Twins K r r' c d) : c.depth = d.depth := by
  induction h with
  | root => rfl
  | scope _ ih => simp [Context.depth, ih]
  | binding _ _ ih => exact ih

section

variable (agree : r.AgreesOn K r')
include agree

lemma sameCapabilities (h : Twins K r r' c d) : c.SameCapabilities d := by
  induction h with
  | root =>
    obtain ⟨registry, config, -⟩ := agree
    exact ⟨by simp only [Context.policy, config], by simp only [Context.separators, config], rfl,
      rfl, fun name => by simp only [Context.function?, registry]⟩
  | scope _ ih => exact ih.scope
  | binding _ _ ih => exact ih.binding rfl

lemma policy_eq (h : Twins K r r' c d) : c.policy = d.policy := (h.sameCapabilities agree).policy

lemma isFunctionPure_eq (h : Twins K r r' c d) : c.isFunctionPure = d.isFunctionPure := by
  funext name
  induction h with
  | root => simp [Context.isFunctionPure, agree.registry]
  | scope _ ih => exact ih
  | binding _ below ih => simp [Context.isFunctionPure, ih, below.policy_eq agree]

lemma isNamePure_eq (h : Twins K r r' c d) : c.isNamePure = d.isNamePure := by
  induction h with
  | root => rfl
  | scope _ ih => exact ih
  | binding _ below ih =>
    funext name
    simp only [Context.isNamePure, ih, below.policy_eq agree, below.isFunctionPure_eq agree]

/-- A binding keeps its value over both roots or over none. -/
lemma settle_eq (h : Twins K r r' c d) (b : Binding) (outcome : Except Failure Value) :
    b.settle c outcome = b.settle d outcome := by
  unfold Binding.settle Context.isPure
  rw [h.isNamePure_eq agree, h.isFunctionPure_eq agree]

end

end Context.Twins

/-! ### Evaluations over both roots -/

variable {K : Stock} {r r' : Root}

/-- Evaluations over two roots with core functions go the same way. -/
def Simulation.twins (agree : r.AgreesOn K r')
    (core : r.registry.All fun f => f ∈ Function.builtins ∧ ¬ f.Weighs) : Simulation Unit where
  toStock := K
  Relates _ s t := s.context.Twins K r r' t.context
  excused _ := False
  spared _ := False
  Opens _ _ _ := True
  Knows f := f ∈ Function.builtins ∧ ¬ f.Weighs
  capabilities twins := twins.sameCapabilities agree
  push := by
    intro _ s t bindings twins fresh
    refine .inr (.inr ?_)
    rcases Context.push_alike twins.depth_eq (twins.policy_eq agree) bindings with
      failed | ⟨pushed, pushed'⟩
    · exact .inl failed
    · exact .inr ⟨_, _, (), pushed, pushed', trivial, twins.scope.bind fresh⟩
  leave _ twins := twins.leave
  execute _ _ known := by simp [Function.builtins] at known
  record _ twins := twins
  executed known := by simp [Function.builtins] at known
  known {_ s _ _ _} twins found := by
    rw [← twins.registry] at core
    exact core _ _ (Context.get?_of_function? found)
  keeps known := Stock.function_of_mem_builtins known.1
  convert {_ s _ _ _ _} twins hv converted := by
    rw [twins.convert] at converted
    exact Stock.cast hv converted
  parse known := absurd trivial known.2

section

variable {agree : r.AgreesOn K r'}
  {core : r.registry.All fun f => f ∈ Function.builtins ∧ ¬ f.Weighs}

/-- A binding that both sides have is read alike in its two views. -/
lemma twins_read {evaluate : Evaluator}
    (tracks : (Simulation.twins agree core).Tracks (fun _ => evaluate) fun _ => evaluate)
    {b : Binding} (holding : K.holding b) {c d : Context} (below : c.Twins K r r' d)
    (history history' : List Execution) :
    (b.read evaluate d history').1 = (b.read evaluate c history).1 ∧
      (b.read evaluate c history).2.context.Twins K r r'
        (b.read evaluate d history').2.context ∧
      ∀ v, (b.read evaluate c history).1 = .ok v → K.value v := by
  have held := holding
  cases content : b.content with
  | ready v =>
    simp only [Stock.holding, content] at held
    simp only [Binding.read, content]
    exact ⟨trivial, .binding holding below, fun _ same => Except.ok.inj same ▸ held⟩
  | deferred e memo =>
    simp only [Stock.holding, content] at held
    cases memo with
    | some v =>
      simp only [Binding.read, content]
      exact ⟨trivial, .binding holding below, fun _ same => Except.ok.inj same ▸ held.2 v rfl⟩
    | none =>
      simp only [Binding.read, content]
      rcases Simulation.follows_const_iff.1 (tracks () e held.1) ⟨c, history⟩ ⟨d, history'⟩ below
        with ⟨_, ⟨⟩, _⟩ | ⟨_, ⟨⟩, _⟩ | ⟨same, twins, good⟩
      rw [same, ← below.settle_eq agree]
      exact ⟨rfl, .binding (Stock.holding_settle holding good) twins, good⟩

/-- A name of the stock leads to the same binding over both roots, or to what they agree on. -/
lemma twins_find {evaluate : Evaluator}
    (tracks : (Simulation.twins agree core).Tracks (fun _ => evaluate) fun _ => evaluate)
    (held : ∀ name v, K.expr (.variable name) → r.lookup name = .ok v → K.value v)
    {name : String} (named : K.expr (.variable name)) {c d : Context} (h : c.Twins K r r' d)
    (history history' : List Execution) :
    (d.find (Binding.read evaluate) name history').1 =
        (c.find (Binding.read evaluate) name history).1 ∧
      (c.find (Binding.read evaluate) name history).2.context.Twins K r r'
        (d.find (Binding.read evaluate) name history').2.context ∧
      ∀ v, (c.find (Binding.read evaluate) name history).1 = .ok v → K.value v := by
  induction h with
  | root =>
    refine ⟨?_, .root, fun v found => held name v named (eq_ok_of_mapError found)⟩
    simp only [Context.find, agree.lookup name named]
  | scope _ ih => exact ⟨ih.1, .scope ih.2.1, ih.2.2⟩
  | @binding b c d holding below ih =>
    simp only [Context.find, ← below.policy_eq agree]
    split
    · exact twins_read tracks holding below history history'
    · exact ⟨ih.1, .binding holding ih.2.1, ih.2.2⟩

/-- To every depth, expressions of the stock go the same way over both roots. -/
lemma twins_tracks (held : ∀ name v, K.expr (.variable name) → r.lookup name = .ok v → K.value v)
    (depth : ℕ) : (Simulation.twins agree core).Tracks (fun _ => Expr.evaluate depth)
      fun _ => Expr.evaluate depth := by
  induction depth with
  | zero =>
    intro _ e _
    exact Simulation.follows_const_iff.2 fun s t twins => .inr (.inr ⟨rfl, twins, nofun⟩)
  | succ depth ih =>
    intro _ e he
    refine Simulation.follows_step he ?_ ih
    rintro name rfl
    refine Simulation.follows_const_iff.2 fun s t twins => .inr (.inr ?_)
    simp only [Evaluation.lookup_eq_find, Evaluation.runFrom_find]
    exact twins_find ih held he twins s.history t.history

end

/-! ### What is read -/

/-- **A formula reads only the variables it names.** Over functions that are there without being
added and weigh no criteria, an expression without lambdas that are there already has the same
outcome over two sets of variables without lambdas, whatever else they hold, if both have the same
under every name that occurs in the expression. It always has an outcome. -/
theorem Expr.answers_of_lookup_eq {registry : Registry} {config : Config}
    {vars vars' : Variables} {e : Expr}
    (core : registry.All fun f => f ∈ Function.builtins ∧ ¬ f.Weighs)
    (literals : ∀ v, e.HasPart (.literal v) → v.IsFirstOrder)
    (firstOrder : ∀ x ∈ vars, x.2.IsFirstOrder)
    (same : ∀ name, e.HasPart (.variable name) →
      Root.lookup ⟨vars', registry, config⟩ name = Root.lookup ⟨vars, registry, config⟩ name)
    (history history' : List Execution) :
    ∃ outcome, (∃ t, e.Answers ⟨.root ⟨vars, registry, config⟩, history⟩ outcome t) ∧
      ∃ t, e.Answers ⟨.root ⟨vars', registry, config⟩, history'⟩ outcome t := by
  let K := Stock.partsOf e literals
  have agree : Root.AgreesOn K ⟨vars, registry, config⟩ ⟨vars', registry, config⟩ :=
    ⟨rfl, rfl, same⟩
  have held : ∀ name v, K.expr (.variable name) →
      Root.lookup ⟨vars, registry, config⟩ name = .ok v → K.value v := by
    intro name v _ found
    unfold Root.lookup at found
    split at found
    · next x at_name =>
      cases found
      exact Stock.value_partsOf (firstOrder x (List.mem_of_find?_eq_some at_name))
    · cases found
  obtain ⟨outcome, t, _, _, run⟩ := Expr.ends_evaluate (.root ⟨vars, registry, config⟩) e
    ⟨_, history⟩ ⟨rfl, fun name f found => (core name f found).2⟩
  obtain ⟨depth, run⟩ := run.exists
  have tracks : (Simulation.twins agree core).Tracks (fun _ => evaluate depth)
      fun _ => evaluate depth := twins_tracks held depth
  rcases Simulation.follows_const_iff.1 (tracks () e .refl) ⟨_, history⟩ ⟨_, history'⟩ .root
    with ⟨_, ⟨⟩, _⟩ | ⟨_, ⟨⟩, _⟩ | ⟨equal, _, _⟩
  rw [run] at equal
  exact ⟨outcome, ⟨t, depth, run⟩, ((evaluate depth e).runFrom ⟨_, history'⟩).2, depth,
    Prod.ext equal rfl⟩

/-- A lambda that is bound to a name and called, beside a variable that the formula does not
name. -/
theorem Expr.answers_of_lookup_eq_calling :
    let registry := (Registry.empty.insert "LET" .letForm).insert "LAMBDA" .lambdaForm
    let vars : Variables := [("a", .null)]
    let vars' : Variables := [("b", .text "other"), ("a", .null)]
    let e : Expr := .call "LET" [.text "f", .call "LAMBDA" [.variable "x", .variable "a"],
      .invoke (.variable "f") [.variable "a"]]
    (registry.All fun f => f ∈ Function.builtins ∧ ¬ f.Weighs) ∧
      (∀ v, e.HasPart (.literal v) → v.IsFirstOrder) ∧
      (∀ x ∈ vars, x.2.IsFirstOrder) ∧
      (∀ name, e.HasPart (.variable name) →
        Root.lookup ⟨vars', registry, {}⟩ name = Root.lookup ⟨vars, registry, {}⟩ name) ∧
      ∃ outcome, (∃ t, e.Answers ⟨.root ⟨vars, registry, {}⟩, []⟩ outcome t) ∧
        ∃ t, e.Answers ⟨.root ⟨vars', registry, {}⟩, []⟩ outcome t := by
  intro registry vars vars' e
  have core : registry.All fun f => f ∈ Function.builtins ∧ ¬ f.Weighs :=
    (Registry.all_empty.insert ⟨by simp [Function.builtins], id⟩ _).insert
      ⟨by simp [Function.builtins], id⟩ _
  have parts (p : Expr) (h : e.HasPart p) : p ∈ [e, .text "f",
      .call "LAMBDA" [.variable "x", .variable "a"], .variable "x", .variable "a",
      .invoke (.variable "f") [.variable "a"], .variable "f"] := by
    refine h.of_closed (by simp) ?_
    simp [e, Expr.parts]
  have literals : ∀ v, e.HasPart (.literal v) → v.IsFirstOrder := by
    intro v h
    simpa [e] using parts _ h
  have firstOrder : ∀ x ∈ vars, x.2.IsFirstOrder := by
    simp [vars, Value.IsFirstOrder, Value.leaves, Value.kind]
  have same : ∀ name, e.HasPart (.variable name) →
      Root.lookup ⟨vars', registry, {}⟩ name = Root.lookup ⟨vars, registry, {}⟩ name := by
    intro name h
    have mem := parts _ h
    simp only [e, List.mem_cons, List.not_mem_nil, or_false, reduceCtorEq, false_or,
      Expr.variable.injEq] at mem
    rcases mem with rfl | rfl | rfl <;> rfl
  exact ⟨core, literals, firstOrder, same, answers_of_lookup_eq core literals firstOrder same [] []⟩

end Formula
