import Formula.Proofs.Context.Chain
import Formula.Proofs.Evaluation.Simulation
import Formula.Proofs.Purity.Questions

/-!
# The analysis of purity ends

In every chain of scopes, the analysis of every expression ends with the verdict on it, after the
same questions whatever values are kept. Within a context, the parts of an expression are smaller
than the expression. A name leads to an enclosing context, or else to an expression in a view with
fewer bindings of the same scope, never to one that shows the binding itself or a later one.
-/

namespace Formula

open Filter

/-! ### Analyses that end -/

/-- That analyses come to a verdict from some depth on, always after as many questions. -/
def Analysis.Ends (analyses : ℕ → Analysis) (v : Except Fault Bool) : Prop :=
  ∃ questions, ∀ᶠ depth in atTop, analyses depth = some ⟨v, questions⟩

namespace Analysis.Ends

variable {x y : ℕ → Analysis} {v w : Except Fault Bool}

lemma of (v : Except Fault Bool) : Ends (fun _ => .of v) v := ⟨0, .of_forall fun _ => rfl⟩

lemma both (hx : Ends x v) (hy : Ends y w) :
    Ends (fun depth => (x depth).both (y depth)) (do if ← v then w else .ok false) := by
  obtain ⟨m, hx⟩ := hx
  obtain ⟨n, hy⟩ := hy
  match v with
  | .error _ | .ok false =>
    refine ⟨m, ?_⟩
    filter_upwards [hx] with depth h
    rw [h]
    rfl
  | .ok true =>
    refine ⟨m + n, ?_⟩
    filter_upwards [hx, hy] with depth h h'
    rw [h, h']
    rfl

lemma settle (hx : Ends x v) : Ends (fun depth => (x depth).settle) (.ok (verdict v)) := by
  obtain ⟨m, hx⟩ := hx
  refine ⟨m, ?_⟩
  filter_upwards [hx] with depth h
  rw [h]
  rfl

end Analysis.Ends

/-! ### Deciding names -/

/-- Whether reading a binding is pure, given the view below it. -/
def Binding.isPure (b : Binding) (below : Context) : Bool :=
  match b.content with
  | .ready _ => true
  | .deferred e _ => verdict (below.isPure e)

namespace Context

/-- The analysis of a question ends if its answer does. -/
lemma end_judge {c : Context} {q : Question} {v : Except Fault Bool}
    (h : Analysis.Ends (fun depth => c.answer (judge depth) q) v) :
    Analysis.Ends (fun depth => judge depth c q) v := by
  obtain ⟨questions, h⟩ := h
  refine ⟨questions + 1, eventually_of_succ ?_⟩
  filter_upwards [h] with depth h
  rw [judge, h]
  rfl

/-- That the analyses of all names and functions end in a context with the verdicts on them. -/
structure Decided (c : Context) : Prop where
  name : ∀ n, Analysis.Ends (fun depth => judge depth c (.name n)) (.ok (c.isNamePure n))
  function : ∀ f, Analysis.Ends (fun depth => judge depth c (.function f)) (c.isFunctionPure f)

/-! ### Expressions -/

namespace Decided

variable {c : Context}

mutual

lemma expr (h : c.Decided) (e : Expr) :
    Analysis.Ends (fun depth => judge depth c (.expr e)) (c.isPure e) := by
  match e with
  | .literal _ | .number _ | .text _ | .null | .invoke _ _ => exact end_judge (.of _)
  | .variable n => exact end_judge (h.name n)
  | .unary _ e | .spread e | .cast e _ => exact end_judge (h.expr e)
  | .binary l _ r => exact end_judge ((h.expr l).both (h.expr r))
  | .array es => exact end_judge (h.exprs es)
  | .call f es => exact end_judge ((h.function f).both (h.exprs es))

lemma exprs (h : c.Decided) (es : List Expr) :
    Analysis.Ends (fun depth => judge depth c (.exprs es))
      (Expr.arePure c.isNamePure c.isFunctionPure es) := by
  match es with
  | [] => exact end_judge (.of _)
  | e :: es => exact end_judge ((h.expr e).both (h.exprs es))

end

end Decided

/-! ### Scopes -/

section

variable {c : Context} {name : String} {bindings before after : List Binding} {b : Binding}

@[simp] lemma declared_bind : (c.bind bindings).declared = c.declared ++ bindings := by
  induction bindings using List.reverseRecOn with
  | nil => simp [bind]
  | append_singleton bindings b ih => rw [bind_concat, declared, ih, List.append_assoc]

@[simp] lemma enclosing?_bind : (c.bind bindings).enclosing? = c.enclosing? := by
  induction bindings using List.reverseRecOn with
  | nil => rfl
  | append_singleton bindings b ih => rw [bind_concat, enclosing?, ih]

/-- Bindings under other names have no part in the verdict on a name. -/
lemma isNamePure_bind_of_free (free : ∀ b ∈ bindings, ¬ c.policy.namesEqual b.name name = true) :
    (c.bind bindings).isNamePure name = c.isNamePure name := by
  induction bindings using List.reverseRecOn with
  | nil => rfl
  | append_singleton bindings b ih =>
    rw [List.forall_mem_append] at free
    rw [bind_concat, isNamePure, policy_bind, if_neg (free.2 b (by simp)), ih free.1]

/-- A name is as pure as the binding under it. -/
lemma isNamePure_bind_of_bound (bound : c.policy.namesEqual b.name name = true)
    (free : ∀ d ∈ after, ¬ c.policy.namesEqual d.name name = true) :
    (c.bind (before ++ b :: after)).isNamePure name = b.isPure (c.bind before) := by
  have under : c.bind (before ++ b :: after) = (binding b (c.bind before)).bind after :=
    bind_append c before (b :: after)
  have same : (binding b (c.bind before)).policy = c.policy := policy_bind c before
  rw [under, isNamePure_bind_of_free (by rwa [same]), isNamePure, policy_bind, if_pos bound]
  rfl

lemma index?_scope (c : Context) (bindings : List Binding) (name : String) :
    (c.scope.bind bindings).index? name =
      bindings.findIdx? fun b => c.scope.policy.namesEqual b.name name := by
  simp [index?, declared]

lemma free_of_index? (h : (c.scope.bind bindings).index? name = none) :
    ∀ b ∈ bindings, ¬ c.scope.policy.namesEqual b.name name = true := by
  rw [index?_scope, List.findIdx?_eq_none_iff] at h
  simpa using h

/-- The binding found under a name splits the bindings of its scope. -/
lemma exists_of_index? {i : ℕ} (h : (c.scope.bind bindings).index? name = some i) :
    ∃ before b after, bindings = before ++ b :: after ∧ before.length = i ∧
      c.scope.policy.namesEqual b.name name = true := by
  rw [index?_scope, List.findIdx?_eq_some_iff_getElem] at h
  obtain ⟨inside, bound, _⟩ := h
  exact ⟨bindings.take i, bindings[i], bindings.drop (i + 1), by simp,
    List.length_take_of_le inside.le, bound⟩

lemma before_scope (c : Context) (before after : List Binding) :
    (c.scope.bind (before ++ after)).before before.length = c.scope.bind before := by
  simp [Context.before, leave, declared]

lemma getElem?_declared (c : Context) (before after : List Binding) (b : Binding) :
    (c.scope.bind (before ++ b :: after)).declared[before.length]? = some b := by
  simp [declared]

/-- Where names are different, no later binding is under the name of an earlier one. -/
lemma free_of_distinct (distinct : (before ++ b :: after).Pairwise fun a b =>
      c.policy.namesEqual a.name b.name = false)
    (bound : c.policy.namesEqual b.name name = true) :
    ∀ d ∈ after, ¬ c.policy.namesEqual d.name name = true := by
  obtain ⟨_, later, _⟩ := List.pairwise_append.1 distinct
  intro d mem same
  have apart := (List.pairwise_cons.1 later).1 d mem
  simp [CasePolicy.namesEqual_trans bound (CasePolicy.namesEqual_symm same)] at apart

end

namespace Decided

variable {c : Context} {bindings before after : List Binding} {b : Binding}

/-- A binding is decided in every scope that shows it, if its view is. -/
lemma binding (view : (c.scope.bind before).Decided) :
    Analysis.Ends
      (fun depth => judge depth (c.scope.bind (before ++ b :: after)) (.binding before.length))
      (.ok (b.isPure (c.scope.bind before))) := by
  apply end_judge
  obtain ⟨_, _, content⟩ := b
  cases content with
  | ready v =>
    simp only [answer, getElem?_declared]
    exact .of _
  | deferred e memo =>
    simp only [answer, getElem?_declared, before_scope]
    exact (view.expr e).settle

/-- A scope is decided if what encloses it and the views of its bindings are. -/
lemma of_views (outer : c.Decided)
    (distinct : bindings.Pairwise fun a b => c.scope.policy.namesEqual a.name b.name = false)
    (views : ∀ before b after, bindings = before ++ b :: after → (c.scope.bind before).Decided) :
    (c.scope.bind bindings).Decided where
  name n := by
    apply end_judge
    simp only [answer, enclosing?_bind, enclosing?]
    cases found : (c.scope.bind bindings).index? n with
    | none =>
      rw [isNamePure_bind_of_free (free_of_index? found)]
      exact outer.name n
    | some i =>
      obtain ⟨before, b, after, rfl, rfl, bound⟩ := exists_of_index? found
      rw [isNamePure_bind_of_bound bound (free_of_distinct distinct bound)]
      exact (views before b after rfl).binding
  function f := by
    apply end_judge
    simp only [answer, enclosing?_bind, enclosing?]
    cases found : (c.scope.bind bindings).index? f with
    | none =>
      rw [(function?_bind_of_free (free_of_index? found)).2]
      exact outer.function f
    | some i =>
      obtain ⟨before, b, after, rfl, rfl, bound⟩ := exists_of_index? found
      rw [(function?_bind_of_bound (by simp) bound).2]
      exact .of _

/-- A scope with different names is decided if what encloses it is. -/
lemma bind (outer : c.Decided)
    (distinct : bindings.Pairwise fun a b => c.scope.policy.namesEqual a.name b.name = false) :
    (c.scope.bind bindings).Decided := by
  -- A view may leave out more than the last binding, so the induction is on their number.
  induction length : bindings.length using Nat.strong_induction_on generalizing bindings with
  | _ n ih =>
    refine outer.of_views distinct ?_
    rintro before b after rfl
    refine ih before.length ?_ (List.pairwise_append.1 distinct).1 rfl
    rw [← length, List.length_append, List.length_cons]
    omega

end Decided

/-! ### Chains -/

namespace IsChain

variable {root : Root} {scopes : List Scope} {c : Context}

/-- Every context of a chain is decided. -/
lemma decided (chain : IsChain root scopes c) : c.Decided := by
  induction chain with
  | root => exact ⟨fun n => end_judge (.of _), fun f => end_judge (.of _)⟩
  | layer l _ below =>
    exact ⟨fun n => end_judge (below.name n), fun f => end_judge (below.function f)⟩
  | push _ pushed outer =>
    obtain ⟨_, valid, rfl⟩ := push_eq_ok_iff.1 pushed
    have distinct := (validateNames_eq_ok_iff.1 valid).2
    simp only [List.map_map, List.pairwise_map] at distinct
    exact outer.bind distinct

/-- The analysis of an expression ends in every chain of scopes, with the verdict on it and after
the same questions, whatever values are kept. -/
theorem judge_ends (chain : IsChain root scopes c) (e : Expr) :
    ∃ enough questions, ∀ d, d.forget = c.forget → ∀ depth, enough ≤ depth →
      judge depth d (.expr e) = some ⟨c.isPure e, questions⟩ := by
  obtain ⟨questions, ends⟩ := chain.decided.expr e
  obtain ⟨enough, ends⟩ := eventually_atTop.1 ends
  refine ⟨enough, questions, fun d alike depth deep => ?_⟩
  rw [judge_eq_of_forget depth alike]
  exact ends depth deep

example : judge 6 ((Context.root {}).scope.bind [⟨"x", 1, .deferred (.variable "x") none⟩])
    (.expr (.variable "x")) = some ⟨.ok true, 6⟩ := rfl

/-- Names that lead outwards and to an impure function: under a layer that drops the distinction of
case, `A` is bound to the `a` and the `b` of the outer scope, and `b` to the `a` before it. -/
theorem judge_ends_caseDropped :
    let tick : HostFunction := { name := "TICK", pure := false, execute := fun _ _ => .ok .null }
    let root : Root := { registry := Registry.builtins.insert "TICK" (.host tick) }
    let a : Binding := ⟨"a", 1, .deferred (.call "TICK" []) none⟩
    let b : Binding := ⟨"b", 3, .deferred (.call "SUM" [.variable "a"]) none⟩
    let A : Binding := ⟨"A", 1, .deferred (.binary (.variable "b") .add (.variable "a")) none⟩
    let x : Binding := ⟨"x", 3, .deferred (.variable "a") (some .null)⟩
    let lower : Context := (Context.root root).scope.bind [a, b]
    let middle : Context := .layer { policy? := some .insensitive } lower
    let upper : Context := middle.scope.bind [A, x]
    let e : Expr := .call "COUNTIF" [.variable "X", .text "=TICK()"]
    IsChain root [⟨middle, [A, x]⟩, ⟨.root root, [a, b]⟩] upper ∧ upper.isPure e = .ok false ∧
      ∃ enough questions, ∀ d, d.forget = upper.forget → ∀ depth, enough ≤ depth →
        judge depth d (.expr e) = some ⟨upper.isPure e, questions⟩ := by
  intro tick root a b A x lower middle upper e
  have below : (Context.root root).push [a, b] = .ok lower := by
    rw [push_eq_ok_iff, validateNames_eq_ok_iff]
    exact ⟨by decide, by decide, rfl⟩
  have above : middle.push [A, x] = .ok upper := by
    rw [push_eq_ok_iff, validateNames_eq_ok_iff]
    exact ⟨by decide, by decide +kernel, rfl⟩
  have chain := IsChain.push (.layer _ (.push .root below)) above
  exact ⟨chain, by decide +kernel, chain.judge_ends e⟩

end IsChain

end Context

end Formula
