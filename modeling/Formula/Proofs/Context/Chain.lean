import Formula.Expr.Evaluate
import Formula.Proofs.Context.Names
import Formula.Proofs.Context.Views
import Mathlib.Data.List.Induction

/-!
# Chains of scopes

A context over a root is a chain: scopes that were opened one on the other, with layers of the host
between them, which may change how names compare. Each scope compares names as its parent does.
Since its names passed the check when it was opened, at most one of its bindings is under a name;
a name stands for what the innermost scope with such a binding says, and for what the root says if
there is none. Functions are found at the root, under names that no scope of the chain binds.
-/

namespace Formula

open Evaluation

/-- A scope of a chain: what it was opened on, and its bindings in the order of their
declaration. -/
structure Scope where
  parent : Context
  bindings : List Binding

namespace Scope

/-- That a binding is under a name, by the policy that the scope sees. -/
def Matches (σ : Scope) (name : String) (b : Binding) : Prop :=
  σ.parent.policy.namesEqual b.name name = true

/-- That a scope binds a name. -/
def Binds (σ : Scope) (name : String) : Prop := ∃ b ∈ σ.bindings, σ.Matches name b

lemma free_of_not_binds {parent : Context} {bindings : List Binding} {name : String}
    (h : ¬ (Scope.mk parent bindings).Binds name) :
    ∀ b ∈ bindings, ¬ parent.scope.policy.namesEqual b.name name = true :=
  fun b mem bound => h ⟨b, mem, bound⟩

end Scope

namespace Context

/-- That a context is a chain over a root, with scopes from the innermost one outwards. What the
bindings keep is left open, so this holds whatever has been evaluated in the meantime. -/
inductive IsChain (root : Root) : List Scope → Context → Prop
  | root : IsChain root [] (.root root)
  | layer {scopes : List Scope} {c : Context} (l : Layer) (below : IsChain root scopes c) :
      IsChain root scopes (.layer l c)
  | push {scopes : List Scope} {c inner : Context} {bindings : List Binding}
      (outer : IsChain root scopes c) (pushed : c.push bindings = .ok inner) :
      IsChain root (⟨c, bindings⟩ :: scopes) inner

/-! ### The bindings of one scope -/

section

variable {c : Context} {name : String} {bindings before after : List Binding} {b : Binding}

lemma bind_append (c : Context) (before after : List Binding) :
    c.bind (before ++ after) = (c.bind before).bind after :=
  List.foldl_append

/-- Bindings under other names are passed through. -/
lemma find_bind_of_free {read : Reading}
    (free : ∀ b ∈ bindings, ¬ c.policy.namesEqual b.name name = true) (history : List Execution) :
    (c.bind bindings).find read name history =
      ((c.find read name history).1,
        (c.find read name history).2.within (·.bind bindings)) := by
  induction bindings using List.reverseRecOn with
  | nil => rfl
  | append_singleton bindings b ih =>
    rw [List.forall_mem_append] at free
    rw [bind_concat, find, policy_bind, if_neg (free.2 b (by simp)), ih free.1]
    simp only [bind_concat]
    rfl

/-- A binding under the name is read in the view of the bindings before it. -/
lemma find_bind_of_bound {read : Reading} (bound : c.policy.namesEqual b.name name = true)
    (free : ∀ d ∈ after, ¬ c.policy.namesEqual d.name name = true) (history : List Execution) :
    (c.bind (before ++ b :: after)).find read name history =
      ((read b (c.bind before) history).1,
        (read b (c.bind before) history).2.within (·.bind after)) := by
  have under : c.bind (before ++ b :: after) = (binding b (c.bind before)).bind after :=
    bind_append c before (b :: after)
  have same : (binding b (c.bind before)).policy = c.policy := policy_bind c before
  rw [under, find_bind_of_free (by rwa [same]), find, policy_bind, if_pos bound]

lemma function?_bind_of_free
    (free : ∀ b ∈ bindings, ¬ c.policy.namesEqual b.name name = true) :
    (c.bind bindings).function? name = c.function? name ∧
      (c.bind bindings).isFunctionPure name = c.isFunctionPure name := by
  induction bindings using List.reverseRecOn with
  | nil => exact ⟨rfl, rfl⟩
  | append_singleton bindings b ih =>
    rw [List.forall_mem_append] at free
    have other := free.2 b (by simp)
    simp only [bind_concat, function?, isFunctionPure, policy_bind, if_neg other]
    exact ih free.1

lemma function?_bind_of_bound (mem : b ∈ bindings)
    (bound : c.policy.namesEqual b.name name = true) :
    (c.bind bindings).function? name = .error (.naming (.namedValue name)) ∧
      (c.bind bindings).isFunctionPure name = .error (.naming (.namedValue name)) := by
  induction bindings using List.reverseRecOn with
  | nil => cases mem
  | append_singleton bindings d ih =>
    simp only [bind_concat, function?, isFunctionPure, policy_bind]
    split
    · exact ⟨rfl, rfl⟩
    · next other =>
      rcases List.mem_append.1 mem with mem | mem
      · exact ih mem
      · rw [List.mem_singleton.1 mem] at bound
        exact absurd bound other

end

/-- Names that were checked together are different: at most one of them is equal to a name. -/
lemma not_matches_of_push {c inner : Context} {bindings before after : List Binding} {b : Binding}
    {name : String} (pushed : c.push bindings = .ok inner) (eq : bindings = before ++ b :: after)
    (bound : c.policy.namesEqual b.name name = true) :
    ∀ d ∈ before ++ after, ¬ c.policy.namesEqual d.name name = true := by
  obtain ⟨_, valid, _⟩ := push_eq_ok_iff.1 pushed
  have distinct := (validateNames_eq_ok_iff.1 valid).2
  simp only [List.map_map, eq, List.map_append, List.map_cons, List.pairwise_append,
    List.pairwise_cons, List.forall_mem_map, List.forall_mem_cons] at distinct
  obtain ⟨_, ⟨later, _⟩, earlier⟩ := distinct
  intro d mem same
  rcases List.mem_append.1 mem with mem | mem
  · have apart := (earlier d mem).1
    simp [CasePolicy.namesEqual_trans same (CasePolicy.namesEqual_symm bound)] at apart
  · have apart := later d mem
    simp [CasePolicy.namesEqual_trans bound (CasePolicy.namesEqual_symm same)] at apart

/-! ### Whole chains -/

/-- How a chain of scopes over a root resolves a name. -/
structure Resolves (root : Root) (scopes : List Scope) (c : Context) (name : String) : Prop where
  /-- At most one binding of each scope is under the name. -/
  unique : ∀ σ ∈ scopes, ∀ before b after, σ.bindings = before ++ b :: after →
    σ.Matches name b → ∀ d ∈ before ++ after, ¬ σ.Matches name d
  /-- The binding of the innermost scope that has one is read: its value, if it holds or keeps one,
  or else its expression in the view of the bindings declared before it, which is a chain again. -/
  bound : ∀ inner σ outer before b after, scopes = inner ++ σ :: outer →
    (∀ τ ∈ inner, ¬ τ.Binds name) → σ.bindings = before ++ b :: after → σ.Matches name b →
    IsChain root (⟨σ.parent, before⟩ :: outer) (σ.parent.scope.bind before) ∧
    ∀ evaluate history,
      (c.lookup evaluate name history).1 =
        (b.read evaluate (σ.parent.scope.bind before) history).1 ∧
      (c.lookup evaluate name history).2.history =
        (b.read evaluate (σ.parent.scope.bind before) history).2.history
  /-- Where no scope binds the name, variables and functions are those of the root. -/
  free : (∀ σ ∈ scopes, ¬ σ.Binds name) →
    (∀ evaluate history,
      c.lookup evaluate name history = ((root.lookup name).mapError .fault, ⟨c, history⟩)) ∧
    c.function? name = .ok (root.registry.get? name) ∧
    c.isFunctionPure name = (Context.root root).isFunctionPure name
  /-- A function is refused for its name just when some scope binds the name. -/
  function : (∃ fault, c.function? name = .error fault ∧ fault.category = .naming) ↔
    ∃ σ ∈ scopes, σ.Binds name
  /-- So is the verdict on its purity. -/
  purity : (∃ fault, c.isFunctionPure name = .error fault ∧ fault.category = .naming) ↔
    ∃ σ ∈ scopes, σ.Binds name
  /-- What a scope binds cannot be called by name. -/
  call : (∃ σ ∈ scopes, σ.Binds name) → ∀ arguments lookup evaluate history,
    ((Expr.call name arguments).step lookup evaluate).runFrom ⟨c, history⟩ =
      (.error (.fault (.naming (.namedValue name))), ⟨c, history⟩)

namespace IsChain

variable {root : Root} {scopes : List Scope} {c : Context} {name : String}

lemma unique (h : IsChain root scopes c) {σ : Scope} (mem : σ ∈ scopes)
    {before after : List Binding} {b : Binding} (eq : σ.bindings = before ++ b :: after)
    (bound : σ.Matches name b) : ∀ d ∈ before ++ after, ¬ σ.Matches name d := by
  induction h with
  | root => cases mem
  | layer l _ ih => exact ih mem
  | push _ pushed ih =>
    rcases List.mem_cons.1 mem with rfl | mem
    · exact not_matches_of_push pushed eq bound
    · exact ih mem

lemma find_of_free (h : IsChain root scopes c) (free : ∀ σ ∈ scopes, ¬ σ.Binds name)
    (read : Reading) (history : List Execution) :
    c.find read name history = ((root.lookup name).mapError .fault, ⟨c, history⟩) := by
  induction h with
  | root => rfl
  | layer l _ ih =>
    rw [find, ih free]
    rfl
  | @push scopes c inner bindings _ pushed ih =>
    obtain ⟨_, _, rfl⟩ := push_eq_ok_iff.1 pushed
    rw [List.forall_mem_cons] at free
    rw [find_bind_of_free (Scope.free_of_not_binds free.1), find, ih free.2]
    rfl

/-- The innermost scope that binds a name decides what the name stands for. -/
lemma find_of_bound (h : IsChain root scopes c) {inner outer : List Scope} {σ : Scope}
    (eq : scopes = inner ++ σ :: outer) (free : ∀ τ ∈ inner, ¬ τ.Binds name)
    {before after : List Binding} {b : Binding} (bindings : σ.bindings = before ++ b :: after)
    (bound : σ.Matches name b) (read : Reading) (history : List Execution) :
    (c.find read name history).1 = (read b (σ.parent.scope.bind before) history).1 ∧
      (c.find read name history).2.history =
        (read b (σ.parent.scope.bind before) history).2.history := by
  induction h generalizing inner with
  | root => simp at eq
  | layer l _ ih => exact ih eq free
  | @push scopes c opened declared chain pushed ih =>
    obtain ⟨_, _, rfl⟩ := push_eq_ok_iff.1 pushed
    cases inner with
    | nil =>
      obtain ⟨rfl, rfl⟩ := List.cons.inj eq
      have alone := not_matches_of_push pushed bindings bound
      have later : ∀ d ∈ after, ¬ c.scope.policy.namesEqual d.name name = true :=
        fun d mem => alone d (List.mem_append_right before mem)
      have bound : c.scope.policy.namesEqual b.name name = true := bound
      have eq : declared = before ++ b :: after := bindings
      rw [eq, find_bind_of_bound bound later]
      exact ⟨rfl, rfl⟩
    | cons τ inner =>
      obtain ⟨rfl, rest⟩ := List.cons.inj eq
      rw [List.forall_mem_cons] at free
      rw [find_bind_of_free (Scope.free_of_not_binds free.1)]
      exact ih rest free.2

/-- What is declared before a binding makes a scope on the same outer scopes. -/
lemma view (h : IsChain root scopes c) {inner outer : List Scope} {σ : Scope}
    (eq : scopes = inner ++ σ :: outer) {before after : List Binding}
    (bindings : σ.bindings = before ++ after) :
    IsChain root (⟨σ.parent, before⟩ :: outer) (σ.parent.scope.bind before) := by
  induction h generalizing inner with
  | root => simp at eq
  | layer l _ ih => exact ih eq
  | @push scopes c opened declared chain pushed ih =>
    cases inner with
    | nil =>
      obtain ⟨rfl, rfl⟩ := List.cons.inj eq
      obtain ⟨room, valid, _⟩ := push_eq_ok_iff.1 pushed
      have eq : declared = before ++ after := bindings
      rw [eq, List.map_append, validateNames_eq_ok_iff, List.map_append, List.forall_mem_append,
        List.pairwise_append] at valid
      have first := validateNames_eq_ok_iff.2 ⟨valid.1.1, valid.2.1⟩
      exact .push chain (push_eq_ok_iff.2 ⟨room, first, rfl⟩)
    | cons τ inner => exact ih (List.cons.inj eq).2

lemma function?_of_free (h : IsChain root scopes c) (free : ∀ σ ∈ scopes, ¬ σ.Binds name) :
    c.function? name = .ok (root.registry.get? name) ∧
      c.isFunctionPure name = (Context.root root).isFunctionPure name := by
  induction h with
  | root => exact ⟨rfl, rfl⟩
  | layer l _ ih => exact ih free
  | @push scopes c inner bindings _ pushed ih =>
    obtain ⟨_, _, rfl⟩ := push_eq_ok_iff.1 pushed
    rw [List.forall_mem_cons] at free
    obtain ⟨found, pure⟩ := function?_bind_of_free (Scope.free_of_not_binds free.1)
    rw [found, pure]
    exact ih free.2

lemma function?_of_bound (h : IsChain root scopes c) (bound : ∃ σ ∈ scopes, σ.Binds name) :
    c.function? name = .error (.naming (.namedValue name)) ∧
      c.isFunctionPure name = .error (.naming (.namedValue name)) := by
  induction h with
  | root => simp at bound
  | layer l _ ih => exact ih bound
  | @push scopes c inner bindings _ pushed ih =>
    obtain ⟨_, _, rfl⟩ := push_eq_ok_iff.1 pushed
    by_cases here : (Scope.mk c bindings).Binds name
    · obtain ⟨b, mem, same⟩ := here
      exact function?_bind_of_bound mem same
    · obtain ⟨found, pure⟩ := function?_bind_of_free (Scope.free_of_not_binds here)
      rw [found, pure]
      apply ih
      obtain ⟨σ, mem, binds⟩ := bound
      rcases List.mem_cons.1 mem with rfl | mem
      · exact absurd binds here
      · exact ⟨σ, mem, binds⟩

/-- The verdict of a root on a function's name is never about names. -/
lemma category_isFunctionPure_root {fault : Fault}
    (h : (Context.root root).isFunctionPure name = .error fault) :
    fault.category = .evaluation := by
  simp only [isFunctionPure] at h
  split at h <;> cases h
  rfl

/-- However a chain was put together, and whatever its layers make of case, it resolves every name
in the same way. -/
theorem resolves (h : IsChain root scopes c) (name : String) : c.Resolves root scopes name where
  unique σ mem before b after := h.unique mem
  bound := by
    intro inner σ outer before b after eq free bindings bound
    refine ⟨h.view eq bindings, fun evaluate history => ?_⟩
    rw [lookup_eq_find]
    exact h.find_of_bound eq free bindings bound (Binding.read evaluate) history
  free := by
    intro free
    refine ⟨fun evaluate history => ?_, h.function?_of_free free⟩
    rw [lookup_eq_find, h.find_of_free free]
  function := by
    constructor
    · rintro ⟨fault, refused, _⟩
      by_contra free
      have found := (h.function?_of_free (by simpa using free)).1
      rw [found] at refused
      cases refused
    · exact fun bound => ⟨_, (h.function?_of_bound bound).1, rfl⟩
  purity := by
    constructor
    · rintro ⟨fault, refused, naming⟩
      by_contra free
      have judged := (h.function?_of_free (by simpa using free)).2
      rw [judged] at refused
      rw [category_isFunctionPure_root refused] at naming
      cases naming
    · exact fun bound => ⟨_, (h.function?_of_bound bound).2, rfl⟩
  call := by
    intro bound arguments lookup evaluate history
    simp only [Expr.step, runFrom_bind, runFrom_context, runFrom_ofExcept,
      (h.function?_of_bound bound).1, Except.mapError]

/-- A layer between two scopes drops the distinction of case: above it, a binding of `A` hides the
`a` of the outer scope. -/
theorem resolves_caseDropped :
    let root : Root := {}
    let a : Binding := ⟨"a", 1, .ready .null⟩
    let x : Binding := ⟨"x", 1, .deferred (.variable "a") none⟩
    let A : Binding := ⟨"A", 3, .deferred (.variable "X") none⟩
    let lower : Context := (Context.root root).scope.bind [a]
    let middle : Context := .layer { policy? := some .insensitive } lower
    let upper : Context := middle.scope.bind [x, A]
    IsChain root [⟨middle, [x, A]⟩, ⟨.root root, [a]⟩] upper ∧
      upper.Resolves root [⟨middle, [x, A]⟩, ⟨.root root, [a]⟩] "a" ∧
      (upper.lookup (Expr.evaluate 9) "a" []).1.toOption.map Value.kind = some .null := by
  intro root a x A lower middle upper
  have below : (Context.root root).push [a] = .ok lower := by
    rw [push_eq_ok_iff, validateNames_eq_ok_iff]
    exact ⟨by decide, by decide, rfl⟩
  have above : middle.push [x, A] = .ok upper := by
    rw [push_eq_ok_iff, validateNames_eq_ok_iff]
    exact ⟨by decide, by decide +kernel, rfl⟩
  have chain := IsChain.push (.layer _ (.push .root below)) above
  exact ⟨chain, chain.resolves "a", by decide +kernel⟩

end IsChain

end Context

end Formula
