import Formula.Proofs.Context.Views
import Formula.Proofs.Evaluation.Stock

/-!
# What a verdict says

A pure verdict on an expression is one on all its parts, and does not depend on the values that
bindings keep. It is given in one context and relied upon in others: while an expression is
evaluated, scopes come and go on top of the context it was judged in. `Carries` says which contexts
these are. They may hide names of the judging context, but what hides them was judged there, too.
-/

namespace Formula

/-! ### Verdicts on parts -/

section

variable {name : String → Bool} {function : String → Except Fault Bool}

lemma and_eq_ok_true {x y : Except Fault Bool} :
    (do if ← x then y else .ok false) = .ok true ↔ x = .ok true ∧ y = .ok true := by
  cases x with
  | error fault => exact ⟨nofun, nofun⟩
  | ok b => cases b <;> simp [bind, Except.bind]

lemma Expr.arePure_eq_ok_true {es : List Expr} :
    arePure name function es = .ok true ↔ ∀ e ∈ es, e.isPure name function = .ok true := by
  induction es with
  | nil => simp [arePure]
  | cons e es ih => simp only [arePure, and_eq_ok_true, ih, List.forall_mem_cons]

/-- The parts of a pure expression are pure. -/
lemma Expr.isPure_of_mem_parts {e p : Expr} (h : e.isPure name function = .ok true)
    (mem : p ∈ e.parts) : p.isPure name function = .ok true := by
  cases e with
  | literal | number | text | null | «variable» => cases mem
  | unary op e =>
    obtain rfl := List.mem_singleton.1 mem
    exact h
  | spread e =>
    obtain rfl := List.mem_singleton.1 mem
    exact h
  | cast e type =>
    obtain rfl := List.mem_singleton.1 mem
    exact h
  | binary l op r =>
    simp only [isPure, and_eq_ok_true] at h
    simp only [parts, List.mem_cons, List.not_mem_nil, or_false] at mem
    rcases mem with rfl | rfl
    · exact h.1
    · exact h.2
  | call f es =>
    simp only [isPure, and_eq_ok_true, arePure_eq_ok_true] at h
    exact h.2 p mem
  | array es =>
    simp only [isPure, arePure_eq_ok_true] at h
    exact h p mem
  | invoke target es => cases h

end

namespace Context

/-! ### Kept values do not matter -/

@[simp] lemma isFunctionPure_forget (c : Context) : c.forget.isFunctionPure = c.isFunctionPure := by
  funext name
  induction c with
  | bare => rfl
  | root r => rfl
  | layer l below ih => exact ih
  | scope parent ih => exact ih
  | binding b below ih => simp [forget, isFunctionPure, ih]

@[simp] lemma isNamePure_forget (c : Context) : c.forget.isNamePure = c.isNamePure := by
  funext name
  induction c generalizing name with
  | bare => rfl
  | root r => rfl
  | layer l below ih => exact ih name
  | scope parent ih => exact ih name
  | binding b below ih =>
    obtain ⟨_, _, content⟩ := b
    cases content <;> simp [forget, isNamePure, Binding.forget, ih]

variable {c d J : Context} {e : Expr} {name : String}

lemma isNamePure_eq_of_forget (h : c.forget = d.forget) : c.isNamePure = d.isNamePure := by
  rw [← isNamePure_forget c, h, isNamePure_forget]

lemma isFunctionPure_eq_of_forget (h : c.forget = d.forget) :
    c.isFunctionPure = d.isFunctionPure := by
  rw [← isFunctionPure_forget c, h, isFunctionPure_forget]

lemma isPure_eq_of_forget (h : c.forget = d.forget) : c.isPure e = d.isPure e := by
  rw [isPure, isPure, isNamePure_eq_of_forget h, isFunctionPure_eq_of_forget h]

/-! ### Names and functions -/

lemma eq_ok_true_of_verdict {x : Except Fault Bool} (h : verdict x = true) : x = .ok true := by
  cases x with
  | error fault => cases h
  | ok b => exact congrArg _ h

/-- A call that is judged pure calls a pure function. -/
lemma isPure_of_isFunctionPure {f : Function} (h : c.isFunctionPure name = .ok true)
    (found : c.function? name = .ok (some f)) : f.isPure = true := by
  induction c with
  | bare => cases found
  | root r =>
    simp only [function?, Except.ok.injEq] at found
    simpa [isFunctionPure, found] using h
  | layer l below ih => exact ih h found
  | scope parent ih => exact ih h found
  | binding b below ih =>
    simp only [isFunctionPure] at h
    simp only [function?] at found
    split at h
    · cases h
    · next unbound =>
      rw [if_neg unbound] at found
      exact ih h found

/-! ### Scopes on top -/

/-- That a binding holds a value or an expression that is pure in a context. -/
def Grants (J : Context) (b : Binding) : Prop :=
  match b.content with
  | .ready _ => True
  | .deferred e _ => J.isPure e = .ok true

lemma Grants.of_forget {b b' : Binding} (h : J.Grants b) (alike : b'.forget = b.forget) :
    J.Grants b' := by
  obtain ⟨_, _, bc⟩ := b
  obtain ⟨_, _, bc'⟩ := b'
  cases bc <;> cases bc' <;> simp_all [Grants, Binding.forget]

/-- That a context has nothing on top of another one, kept values aside, but scopes with bindings
that are pure in the other one. -/
inductive Carries (J : Context) : Context → Prop
  | base {c : Context} (alike : c.forget = J.forget) : Carries J c
  | scope {c : Context} (below : Carries J c) : Carries J (.scope c)
  | binding {b : Binding} {c : Context} (grants : J.Grants b) (below : Carries J c) :
      Carries J (.binding b c)

namespace Carries

lemma of_forget (h : J.Carries c) (alike : d.forget = c.forget) : J.Carries d := by
  induction h generalizing d with
  | base alike' => exact .base (alike.trans alike')
  | scope _ ih =>
    obtain ⟨d, rfl, below⟩ := eq_scope_of_forget alike
    exact .scope (ih below)
  | binding grants _ ih =>
    obtain ⟨b, d, rfl, same, below⟩ := eq_binding_of_forget alike
    exact .binding (grants.of_forget same) (ih below)

lemma bind (h : J.Carries c) {bindings : List Binding} (grants : ∀ b ∈ bindings, J.Grants b) :
    J.Carries (c.bind bindings) := by
  induction bindings generalizing c with
  | nil => exact h
  | cons b bs ih =>
    exact ih (.binding (grants b (by simp)) h) fun b mem => grants b (by simp [mem])

lemma registry_eq (h : J.Carries c) : c.registry = J.registry := by
  induction h with
  | base alike => exact registry_eq_of_forget alike
  | scope _ ih => exact ih
  | binding _ _ ih => exact ih

/-- Scopes can take a function away, but not put another one in its place. -/
lemma function? {f : Function} (h : J.Carries c) (found : c.function? name = .ok (some f)) :
    J.function? name = .ok (some f) := by
  induction h with
  | base alike => rwa [← function?_eq_of_forget alike]
  | scope _ ih => exact ih found
  | binding _ _ ih =>
    simp only [Context.function?] at found
    split at found
    · cases found
    · exact ih found

end Carries

end Context

end Formula
