import Formula.Proofs.Evaluation.Depth

/-!
# Evaluation up to kept values

Two states are related when their contexts differ in kept values only. How bindings are read is left
open: an evaluator follows another one, in contexts that differ so, as soon as reading a single
binding does. Host functions must not look at what was executed before, since the executions that a
kept value saves are missing on one side.
-/

namespace Formula

open Evaluation Filter

/-! ### Stateless functions -/

/-- Whether what a function answers depends on its arguments only. -/
def Function.IsStateless : Function → Prop
  | .host f => ∀ earlier later values, f.execute earlier values = f.execute later values
  | _ => True

/-- Whether all functions of a registry are stateless. -/
def Registry.IsStateless (r : Registry) : Prop := r.All Function.IsStateless

/-- Only functions that a host adds can look at what was executed before. -/
lemma Registry.isStateless_builtins : builtins.IsStateless := by
  refine all_builtins fun f mem => ?_
  simp only [Function.builtins, List.mem_cons, List.not_mem_nil, or_false] at mem
  rcases mem with rfl | rfl | rfl | rfl | rfl | rfl | rfl | rfl | rfl | rfl | rfl | rfl | rfl |
    rfl | rfl <;> trivial

/-! ### Conditions on kept values -/

/-- What may be kept in a binding, seen from the view below it. -/
structure Keeping where
  /-- Whether the binding may be as it is. -/
  Admits : Binding → Context → Prop
  fresh : ∀ {b : Binding} {below : Context}, Stock.all.binding b → Admits b below
  alike : ∀ {b : Binding} {below below' : Context}, below.registry.IsStateless →
    below.forget = below'.forget → Admits b below → Admits b below'

namespace Keeping

/-- Anything may be kept. -/
def any : Keeping where
  Admits _ _ := True
  fresh _ := trivial
  alike _ _ _ := trivial

/-- That a context differs from another one in kept values only, which may be kept. -/
structure Allows (K : Keeping) (c d : Context) : Prop where
  alike : d.forget = c.forget
  each : d.Each K.Admits

variable {K : Keeping} {c d : Context} {b b' : Binding} {l : Layer}

lemma allows_layer : K.Allows (.layer l c) d ↔ ∃ d', d = .layer l d' ∧ K.Allows c d' := by
  constructor
  · rintro ⟨alike, each⟩
    obtain ⟨d', rfl, below⟩ := Context.eq_layer_of_forget alike
    exact ⟨d', rfl, below, each⟩
  · rintro ⟨d', rfl, alike, each⟩
    exact ⟨by simp [Context.forget, alike], each⟩

lemma allows_scope : K.Allows (.scope c) d ↔ ∃ d', d = .scope d' ∧ K.Allows c d' := by
  constructor
  · rintro ⟨alike, each⟩
    obtain ⟨d', rfl, below⟩ := Context.eq_scope_of_forget alike
    exact ⟨d', rfl, below, each⟩
  · rintro ⟨d', rfl, alike, each⟩
    exact ⟨by simp [Context.forget, alike], each⟩

lemma allows_binding : K.Allows (.binding b c) d ↔
    ∃ b' d', d = .binding b' d' ∧ b'.forget = b.forget ∧ K.Admits b' d' ∧ K.Allows c d' := by
  constructor
  · rintro ⟨alike, each⟩
    obtain ⟨b', d', rfl, same, below⟩ := Context.eq_binding_of_forget alike
    exact ⟨b', d', rfl, same, each.1, below, each.2⟩
  · rintro ⟨b', d', rfl, same, admits, alike, each⟩
    exact ⟨by simp [Context.forget, same, alike], admits, each⟩

lemma Allows.bind (h : K.Allows c d) {bindings : List Binding}
    (fresh : ∀ b ∈ bindings, Stock.all.binding b) :
    K.Allows (c.scope.bind bindings) (d.scope.bind bindings) where
  alike := Context.bind_eq_of_forget h.alike bindings
  each := Context.each_bind h.each fun b mem _ => K.fresh (fresh b mem)

lemma Allows.leave (h : K.Allows c d) : K.Allows c.leave d.leave where
  alike := Context.leave_eq_of_forget h.alike
  each := Context.each_leave h.each

lemma Allows.stateless (h : K.Allows c d) (stateless : c.registry.IsStateless) :
    d.registry.IsStateless := by
  rwa [Context.registry_eq_of_forget h.alike]

lemma any_allows (alike : d.forget = c.forget) : any.Allows c d where
  alike := alike
  each := by
    clear alike
    induction d with
    | bare => trivial
    | root r => trivial
    | layer l below ih => exact ih
    | scope parent ih => exact ih
    | binding b below ih => exact ⟨trivial, ih⟩

end Keeping

/-! ### The simulation -/

/-- States that differ in the executions that were recorded and in the values that are kept, each
side with a condition of its own on these. -/
def Simulation.forgetting (excused spared : Failure → Prop) (I J : Keeping) :
    Simulation Context where
  toStock := .all
  Relates c s t := I.Allows c s.context ∧ J.Allows c t.context ∧ c.registry.IsStateless
  excused := excused
  spared := spared
  Opens c bindings d := d = c.scope.bind bindings
  Knows f := f.IsStateless
  capabilities := by
    rintro c s t ⟨left, right, _⟩
    have same := left.alike.trans right.alike.symm
    exact ⟨Context.policy_eq_of_forget same, Context.separators_eq_of_forget same,
      Context.parse_eq_of_forget same, Context.convert_eq_of_forget same,
      Context.function?_eq_of_forget same⟩
  push := by
    rintro c s t bindings ⟨left, right, stateless⟩ fresh
    have same := left.alike.trans right.alike.symm
    refine .inr (.inr ?_)
    rcases Context.push_alike (Context.depth_eq_of_forget same) (Context.policy_eq_of_forget same)
      bindings with failed | ⟨pushed, pushed'⟩
    · exact .inl failed
    · refine .inr ⟨_, _, _, pushed, pushed', rfl, left.bind fresh, right.bind fresh, ?_⟩
      simpa [Context.registry] using stateless
  leave := by
    rintro c _ s t bindings rfl ⟨left, right, stateless⟩
    refine ⟨by simpa [Context.leave] using left.leave,
      by simpa [Context.leave] using right.leave, ?_⟩
    simpa [Context.registry] using stateless
  execute values _ stateless := stateless _ _ values
  record _ related := related
  executed _ _ _ := trivial
  known := by
    rintro c s t name f ⟨left, _, stateless⟩ found
    apply stateless name f
    rw [← Context.registry_eq_of_forget left.alike]
    exact Context.get?_of_function? found
  keeps _ := Stock.function_all _
  convert _ _ _ := trivial
  parse _ _ _ := trivial

namespace Simulation.forgetting

variable {excused spared : Failure → Prop} {I J : Keeping} {c c₁ c₂ : Context} {b b₁ b₂ : Binding}

/-- The relation is that of the views, up to what the binding keeps itself. -/
lemma relates_binding {s t : State} (related : (forgetting excused spared I J).Relates c s t)
    (same₁ : b₁.forget = b.forget) (same₂ : b₂.forget = b.forget) (admits₁ : I.Admits b₁ c₁)
    (admits₂ : J.Admits b₂ c₂) (alike₁ : I.Allows c c₁) (alike₂ : J.Allows c c₂) :
    (forgetting excused spared I J).Relates (.binding b c) (s.within (.binding b₁))
      (t.within (.binding b₂)) := by
  obtain ⟨left, right, stateless⟩ := related
  refine ⟨Keeping.allows_binding.2 ⟨b₁, _, rfl, same₁, ?_, left⟩,
    Keeping.allows_binding.2 ⟨b₂, _, rfl, same₂, ?_, right⟩, stateless⟩
  · exact I.alike (alike₁.stateless stateless) (alike₁.alike.trans left.alike.symm) admits₁
  · exact J.alike (alike₂.stateless stateless) (alike₂.alike.trans right.alike.symm) admits₂

/-- Reading a binding corresponds, from related states and in related views. -/
def Reads (excused spared : Failure → Prop) (I J : Keeping) (read read' : ℕ → Reading) : Prop :=
  ∀ b c b₁ c₁ b₂ c₂ history₁ history₂, b₁.forget = b.forget → b₂.forget = b.forget →
    I.Admits b₁ c₁ → J.Admits b₂ c₂ →
    (forgetting excused spared I J).Relates c ⟨c₁, history₁⟩ ⟨c₂, history₂⟩ →
    (forgetting excused spared I J).Meets (.binding b c) (fun n => read n b₁ c₁ history₁)
      (fun n => read' n b₂ c₂ history₂) (fun _ => True)

/-- A binding that holds a value needs no evaluation. -/
lemma meets_ready {history₁ history₂ : List Execution}
    (related : (forgetting excused spared I J).Relates c ⟨c₁, history₁⟩ ⟨c₂, history₂⟩)
    (same₁ : b₁.forget = b.forget) (same₂ : b₂.forget = b.forget) (admits₁ : I.Admits b₁ c₁)
    (admits₂ : J.Admits b₂ c₂) (v : Value) :
    (forgetting excused spared I J).Meets (.binding b c)
      (fun _ => (.ok v, ⟨.binding b₁ c₁, history₁⟩))
      (fun _ => (.ok v, ⟨.binding b₂ c₂, history₂⟩)) (fun _ => True) :=
  meets_const (relates_binding related same₁ same₂ admits₁ admits₂ related.1 related.2.1)
    fun _ _ => trivial

/-- The way down to a binding does not depend on what is kept. -/
lemma follows_find {read read' : ℕ → Reading}
    (h : Reads excused spared I J read read') (c : Context) (name : String) :
    (forgetting excused spared I J).Follows c (fun n => find (read n) name)
      (fun n => find (read' n) name) (fun _ => True) := by
  rintro ⟨c₁, history₁⟩ ⟨c₂, history₂⟩ related
  change (forgetting excused spared I J).Meets c (fun n => c₁.find (read n) name history₁)
    (fun n => c₂.find (read' n) name history₂) fun _ => True
  induction c generalizing c₁ c₂ with
  | bare =>
    obtain ⟨⟨alike₁, each₁⟩, ⟨alike₂, each₂⟩, stateless⟩ := related
    cases c₁ <;> simp [Context.forget] at alike₁
    cases c₂ <;> simp [Context.forget] at alike₂
    exact meets_const ⟨⟨rfl, each₁⟩, ⟨rfl, each₂⟩, stateless⟩ fun _ _ => trivial
  | root r =>
    obtain ⟨⟨alike₁, each₁⟩, ⟨alike₂, each₂⟩, stateless⟩ := related
    cases c₁ <;> simp [Context.forget] at alike₁
    cases c₂ <;> simp [Context.forget] at alike₂
    subst alike₁ alike₂
    exact meets_const ⟨⟨rfl, each₁⟩, ⟨rfl, each₂⟩, stateless⟩ fun _ _ => trivial
  | layer l c ih =>
    obtain ⟨above₁, above₂, stateless⟩ := related
    obtain ⟨c₁, rfl, left⟩ := Keeping.allows_layer.1 above₁
    obtain ⟨c₂, rfl, right⟩ := Keeping.allows_layer.1 above₂
    refine (ih c₁ c₂ ⟨left, right, stateless⟩).within (f := fun _ => Context.layer l)
      (g := fun _ => Context.layer l) ?_
    rintro _ s t _ _ ⟨left, right, stateless⟩
    exact ⟨Keeping.allows_layer.2 ⟨_, rfl, left⟩, Keeping.allows_layer.2 ⟨_, rfl, right⟩, stateless⟩
  | scope c ih =>
    obtain ⟨above₁, above₂, stateless⟩ := related
    obtain ⟨c₁, rfl, left⟩ := Keeping.allows_scope.1 above₁
    obtain ⟨c₂, rfl, right⟩ := Keeping.allows_scope.1 above₂
    refine (ih c₁ c₂ ⟨left, right, stateless⟩).within (f := fun _ => Context.scope)
      (g := fun _ => Context.scope) ?_
    rintro _ s t _ _ ⟨left, right, stateless⟩
    exact ⟨Keeping.allows_scope.2 ⟨_, rfl, left⟩, Keeping.allows_scope.2 ⟨_, rfl, right⟩, stateless⟩
  | binding b c ih =>
    obtain ⟨above₁, above₂, stateless⟩ := related
    obtain ⟨b₁, c₁, rfl, same₁, admits₁, left⟩ := Keeping.allows_binding.1 above₁
    obtain ⟨b₂, c₂, rfl, same₂, admits₂, right⟩ := Keeping.allows_binding.1 above₂
    have name₁ : b₁.name = b.name := by rw [← b₁.forget_name, same₁, b.forget_name]
    have name₂ : b₂.name = b.name := by rw [← b₂.forget_name, same₂, b.forget_name]
    have policy₁ := Context.policy_eq_of_forget left.alike
    have policy₂ := Context.policy_eq_of_forget right.alike
    simp only [Context.find, name₁, name₂, policy₁, policy₂]
    split
    · exact h b c b₁ c₁ b₂ c₂ _ _ same₁ same₂ admits₁ admits₂ ⟨left, right, stateless⟩
    · refine (ih c₁ c₂ ⟨left, right, stateless⟩).within (f := fun _ => .binding b₁)
        (g := fun _ => .binding b₂) fun _ s t _ _ related => ?_
      exact relates_binding related same₁ same₂ admits₁ admits₂ left right

end Simulation.forgetting

end Formula
