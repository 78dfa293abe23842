import Formula.Context.Lookup
import Mathlib.Tactic.Lemma

/-!
# Contexts up to the values they keep

Evaluation changes nothing in a context but the values that deferred bindings keep. `forget` drops
them all, and two contexts are alike when they differ in nothing else. What a context offers to an
expression, its names, settings and functions, does not depend on kept values.
-/

namespace Formula

/-! ### Dropping kept values -/

/-- The binding without a kept value. -/
def Binding.forget (b : Binding) : Binding :=
  match b.content with
  | .ready _ => b
  | .deferred e _ => { b with content := .deferred e none }

namespace Binding

@[simp] lemma forget_name (b : Binding) : b.forget.name = b.name := by
  unfold forget
  split <;> rfl

lemma content_eq_ready_of_forget {b d : Binding} {v : Value} (h : b.forget = d.forget)
    (hb : b.content = .ready v) : d.content = .ready v := by
  obtain ⟨_, _, bc⟩ := b
  obtain ⟨_, _, dc⟩ := d
  cases bc <;> cases dc <;> simp_all [forget]

lemma content_eq_deferred_of_forget {b d : Binding} {e : Expr} {memo : Option Value}
    (h : b.forget = d.forget) (hb : b.content = .deferred e memo) :
    ∃ memo', d.content = .deferred e memo' := by
  obtain ⟨_, _, bc⟩ := b
  obtain ⟨_, _, dc⟩ := d
  cases bc <;> cases dc <;> simp_all [forget]

/-- Keeping a value is forgotten like any other. -/
@[simp] lemma forget_settle (b : Binding) (below : Context) (outcome : Except Failure Value) :
    (b.settle below outcome).forget = b.forget := by
  unfold settle
  split
  · split <;> simp_all [forget]
  · rfl

end Binding

namespace Context

/-- The context with no value kept. -/
@[simp] def forget : Context → Context
  | .bare => .bare
  | .root r => .root r
  | .layer l below => .layer l below.forget
  | .scope parent => .scope parent.forget
  | .binding b below => .binding b.forget below.forget

@[simp] lemma forget_bind (c : Context) (bindings : List Binding) :
    (c.bind bindings).forget = c.forget.bind (bindings.map Binding.forget) := by
  induction bindings generalizing c with
  | nil => rfl
  | cons b bs ih => exact ih (.binding b c)

@[simp] lemma forget_leave (c : Context) : c.leave.forget = c.forget.leave := by
  induction c with
  | bare => rfl
  | root r => rfl
  | layer l below => rfl
  | scope parent => rfl
  | binding b below ih => exact ih

lemma bind_concat (c : Context) (bindings : List Binding) (b : Binding) :
    c.bind (bindings ++ [b]) = .binding b (c.bind bindings) := by
  simp [bind]

/-! ### What kept values leave alone -/

@[simp] lemma policy_forget (c : Context) : c.forget.policy = c.policy := by
  induction c with
  | bare => rfl
  | root r => rfl
  | layer l below ih => simp [forget, policy, ih]
  | scope parent ih => exact ih
  | binding b below ih => exact ih

@[simp] lemma separators_forget (c : Context) : c.forget.separators = c.separators := by
  induction c with
  | bare => rfl
  | root r => rfl
  | layer l below ih => simp [forget, separators, ih]
  | scope parent ih => exact ih
  | binding b below ih => exact ih

@[simp] lemma depth_forget (c : Context) : c.forget.depth = c.depth := by
  induction c with
  | bare => rfl
  | root r => rfl
  | layer l below ih => exact ih
  | scope parent ih => simp [forget, depth, ih]
  | binding b below ih => exact ih

@[simp] lemma parse_forget (c : Context) : c.forget.parse = c.parse := by
  induction c with
  | bare => rfl
  | root r => rfl
  | layer l below ih => funext text; simp [forget, parse, ih]
  | scope parent ih => funext text; simp [forget, parse, ih]
  | binding b below ih => funext text; simp [forget, parse, ih]

@[simp] lemma convert_forget (c : Context) : c.forget.convert = c.convert := by
  induction c with
  | bare => rfl
  | root r => rfl
  | layer l below ih => funext v type; simp [forget, convert, ih]
  | scope parent ih => funext v type; simp [forget, convert, ih]
  | binding b below ih => funext v type; simp [forget, convert, ih]

@[simp] lemma function?_forget (c : Context) (name : String) :
    c.forget.function? name = c.function? name := by
  induction c with
  | bare => rfl
  | root r => rfl
  | layer l below ih => exact ih
  | scope parent ih => exact ih
  | binding b below ih => simp [forget, function?, ih]

/-! ### Contexts alike -/

variable {c d : Context}

lemma policy_eq_of_forget (h : c.forget = d.forget) : c.policy = d.policy := by
  rw [← policy_forget c, h, policy_forget]

lemma separators_eq_of_forget (h : c.forget = d.forget) : c.separators = d.separators := by
  rw [← separators_forget c, h, separators_forget]

lemma depth_eq_of_forget (h : c.forget = d.forget) : c.depth = d.depth := by
  rw [← depth_forget c, h, depth_forget]

lemma parse_eq_of_forget (h : c.forget = d.forget) : c.parse = d.parse := by
  rw [← parse_forget c, h, parse_forget]

lemma convert_eq_of_forget (h : c.forget = d.forget) : c.convert = d.convert := by
  rw [← convert_forget c, h, convert_forget]

lemma function?_eq_of_forget (h : c.forget = d.forget) (name : String) :
    c.function? name = d.function? name := by
  rw [← function?_forget c, h, function?_forget]

lemma leave_eq_of_forget (h : c.forget = d.forget) : c.leave.forget = d.leave.forget := by
  rw [forget_leave, h, forget_leave]

lemma bind_eq_of_forget (h : c.forget = d.forget) (bindings : List Binding) :
    (c.scope.bind bindings).forget = (d.scope.bind bindings).forget := by
  simp [forget, h]

lemma eq_layer_of_forget {l : Layer} {below : Context} (h : c.forget = (layer l below).forget) :
    ∃ below', c = .layer l below' ∧ below'.forget = below.forget := by
  cases c <;> simp_all [forget]

lemma eq_scope_of_forget {parent : Context} (h : c.forget = (scope parent).forget) :
    ∃ parent', c = .scope parent' ∧ parent'.forget = parent.forget := by
  cases c <;> simp_all [forget]

lemma eq_binding_of_forget {b : Binding} {below : Context}
    (h : c.forget = (binding b below).forget) :
    ∃ b' below', c = .binding b' below' ∧ b'.forget = b.forget ∧ below'.forget = below.forget := by
  cases c with
  | binding b' below' =>
    simp only [forget, binding.injEq] at h
    exact ⟨b', below', rfl, h⟩
  | _ => simp [forget] at h

/-! ### Opening scopes -/

/-- Why a scope cannot be opened: there is no room for it, or a name cannot be bound. -/
lemma push_eq_error_iff {bindings : List Binding} {fault : Fault} :
    c.push bindings = .error fault ↔
      (maxScopeDepth ≤ c.depth ∧ fault = .evaluation .nestingTooDeep) ∨
      (c.depth < maxScopeDepth ∧
        validateNames c.policy (bindings.map fun b => (b.name, b.position)) = .error fault) := by
  unfold push
  split
  · next full =>
    simp only [Except.error.injEq]
    constructor
    · exact fun h => .inl ⟨by omega, h.symm⟩
    · rintro (⟨_, rfl⟩ | ⟨room, _⟩)
      · rfl
      · omega
  · next room =>
    cases validateNames c.policy (bindings.map fun b => (b.name, b.position)) with
    | ok _ =>
      simp only [Bind.bind, Except.bind, reduceCtorEq, and_false, or_false, false_iff]
      omega
    | error fault' =>
      simp only [Bind.bind, Except.bind, Except.error.injEq]
      constructor
      · exact fun h => .inr ⟨by omega, h⟩
      · rintro (⟨full, _⟩ | ⟨_, h⟩)
        · omega
        · exact h

/-- Where there is as much room and names are compared alike, a scope can be opened, or it cannot
for the same reason. -/
lemma push_alike (room : c.depth = d.depth) (policy : c.policy = d.policy)
    (bindings : List Binding) :
    (∃ fault, c.push bindings = .error fault ∧ d.push bindings = .error fault) ∨
    (c.push bindings = .ok (c.scope.bind bindings) ∧
      d.push bindings = .ok (d.scope.bind bindings)) := by
  cases pushed : c.push bindings with
  | error fault =>
    refine .inl ⟨fault, rfl, ?_⟩
    rw [push_eq_error_iff] at pushed ⊢
    rwa [← room, ← policy]
  | ok inner =>
    obtain ⟨left, valid, rfl⟩ := push_eq_ok_iff.1 pushed
    rw [room] at left
    rw [policy] at valid
    exact .inr ⟨rfl, push_eq_ok_iff.2 ⟨left, valid, rfl⟩⟩

end Context

end Formula
