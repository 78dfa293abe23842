import Formula.Proofs.Evaluation.Depth
import Mathlib.Data.List.Induction

/-!
# Scopes within scopes

One context nests another one when it has the same bindings in the same order, but has scopes and
layers of its own that say nothing. Names, functions and purity cannot tell the two apart. Only the
room for further scopes may differ, so an evaluation runs alike in both unless the deeper context
has no room left; and if no scopes were added, it runs alike in any case.
-/

namespace Formula

open Evaluation Filter

/-! ### The relation -/

/-- That a context differs from another one in layers that change nothing, in where its bindings
were declared and, if it may be deeper, in scopes of its own. -/
inductive Context.Nests (deep : Prop) : Context → Context → Prop
  | bare : Nests deep .bare .bare
  | root (r : Root) : Nests deep (.root r) (.root r)
  | layer (l : Layer) {n f : Context} (below : Nests deep n f) :
      Nests deep (.layer l n) (.layer l f)
  | scope {n f : Context} (parent : Nests deep n f) : Nests deep (.scope n) (.scope f)
  | binding {b b' : Binding} {n f : Context} (name : b.name = b'.name)
      (content : b.content = b'.content) (below : Nests deep n f) :
      Nests deep (.binding b n) (.binding b' f)
  | idle {n f : Context} (below : Nests deep n f) : Nests deep (.layer {} n) f
  | extra {n f : Context} (may : deep) (inner : Nests deep n f) : Nests deep (.scope n) f

namespace Context.Nests

variable {deep : Prop} {n f : Context}

@[refl]
lemma refl (c : Context) : c.Nests deep c := by
  induction c with
  | bare => exact .bare
  | root r => exact .root r
  | layer l below ih => exact .layer l ih
  | scope parent ih => exact .scope ih
  | binding b below ih => exact .binding rfl rfl ih

lemma bind (h : n.Nests deep f) (bindings : List Binding) :
    (n.bind bindings).Nests deep (f.bind bindings) := by
  induction bindings generalizing n f with
  | nil => exact h
  | cons b bs ih => exact ih (.binding rfl rfl h)

/-- What nests an empty scope nests what that scope was opened in: the scope that the deeper context
has for it can as well be one of its own. -/
lemma of_scope (may : deep) (h : n.Nests deep (.scope f)) : n.Nests deep f := by
  generalize eq : Context.scope f = g at h
  induction h with
  | bare | root | layer | binding => cases eq
  | scope parent =>
    cases eq
    exact .extra may parent
  | idle _ ih => exact .idle (ih eq)
  | extra _ _ ih => exact .extra may (ih eq)

/-- Leaving a scope that was opened on both sides. The deeper context may have opened scopes of its
own below, but not among the bindings that are left. -/
lemma leave {wn wf : Context} {bindings : List Binding} (h : n.Nests deep f)
    (hn : n.forget = (wn.scope.bind bindings).forget)
    (hf : f.forget = (wf.scope.bind bindings).forget) : n.leave.Nests deep f.leave := by
  induction bindings using List.reverseRecOn generalizing n f with
  | nil =>
    obtain ⟨n, rfl, -⟩ := eq_scope_of_forget hn
    obtain ⟨f, rfl, -⟩ := eq_scope_of_forget hf
    cases h with
    | scope parent => exact parent
    | extra may inner => exact inner.of_scope may
  | append_singleton bindings b ih =>
    rw [bind_concat] at hn hf
    obtain ⟨_, n, rfl, -, hn'⟩ := eq_binding_of_forget hn
    obtain ⟨_, f, rfl, -, hf'⟩ := eq_binding_of_forget hf
    cases h with
    | binding _ _ below =>
      have left := ih below hn' hf'
      exact left

lemma depth_le (h : n.Nests deep f) : f.depth ≤ n.depth := by
  induction h with
  | bare | root => rfl
  | layer _ _ ih | idle _ ih => exact ih
  | scope _ ih => exact Nat.succ_le_succ ih
  | binding _ _ _ ih => exact ih
  | extra _ _ ih => exact Nat.le_succ_of_le ih

/-- Without scopes of its own the context is no deeper. -/
lemma depth_eq (h : n.Nests deep f) (even : ¬ deep) : n.depth = f.depth := by
  induction h with
  | bare | root => rfl
  | layer _ _ ih | idle _ ih => exact ih
  | scope _ ih => exact congrArg (· + 1) ih
  | binding _ _ _ ih => exact ih
  | extra may => exact absurd may even

/-! ### What cannot tell the two apart -/

lemma sameCapabilities (h : n.Nests deep f) : n.SameCapabilities f := by
  induction h with
  | bare | root => rfl
  | layer l _ ih => exact ih.layer l
  | scope _ ih => exact ih.scope
  | binding same _ _ ih => exact ih.binding same
  | idle _ ih | extra _ _ ih => exact ⟨ih.policy, ih.separators, ih.parse, ih.convert, ih.function⟩

lemma policy (h : n.Nests deep f) : n.policy = f.policy := h.sameCapabilities.policy

lemma isFunctionPure (h : n.Nests deep f) : n.isFunctionPure = f.isFunctionPure := by
  funext name
  induction h with
  | bare | root => rfl
  | layer _ _ ih | scope _ ih | idle _ ih | extra _ _ ih => exact ih
  | binding same _ below ih => simp only [Context.isFunctionPure, same, below.policy, ih]

lemma isNamePure (h : n.Nests deep f) : n.isNamePure = f.isNamePure := by
  induction h with
  | bare | root => rfl
  | layer _ _ ih | scope _ ih | idle _ ih | extra _ _ ih =>
    funext name
    exact congrFun ih name
  | binding same content below ih =>
    funext name
    simp only [Context.isNamePure, same, content, below.policy, below.isFunctionPure, ih]

lemma isPure (h : n.Nests deep f) (e : Expr) : n.isPure e = f.isPure e := by
  simp only [Context.isPure, h.isNamePure, h.isFunctionPure]

lemma settle {b b' : Binding} (h : n.Nests deep f) (name : b.name = b'.name)
    (content : b.content = b'.content) (outcome : Except Failure Value) :
    (b.settle n outcome).name = (b'.settle f outcome).name ∧
      (b.settle n outcome).content = (b'.settle f outcome).content := by
  simp only [Binding.settle, ← content]
  cases b.content with
  | ready v => exact ⟨name, content⟩
  | deferred e memo =>
    cases outcome with
    | error failure => exact ⟨name, content⟩
    | ok v =>
      simp only [h.isPure]
      split
      · exact ⟨name, rfl⟩
      · exact ⟨name, content⟩

end Context.Nests

/-! ### The simulation -/

/-- That two states differ in scopes and layers that say nothing, which the first one has. A world
is a pair of contexts, which says what the states look like up to kept values. -/
structure State.Nests (deep : Prop) (w : Context × Context) (s t : State) : Prop where
  left : s.context.forget = w.1.forget
  right : t.context.forget = w.2.forget
  nests : s.context.Nests deep t.context
  history : s.history = t.history

namespace State.Nests

variable {deep : Prop} {w : Context × Context} {s t : State}

/-- A scope can be opened on both sides or on neither, unless there is no room on the deeper
side. -/
lemma push (h : Nests deep w s t) (bindings : List Binding) :
    (deep ∧ s.context.push bindings = .error (.evaluation .nestingTooDeep)) ∨
    (∃ fault, s.context.push bindings = .error fault ∧ t.context.push bindings = .error fault) ∨
    ∃ c d, s.context.push bindings = .ok c ∧ t.context.push bindings = .ok d ∧
      Nests deep (w.1.scope.bind bindings, w.2.scope.bind bindings) ⟨c, s.history⟩
        ⟨d, t.history⟩ := by
  cases pushed : s.context.push bindings with
  | error fault =>
    rcases Context.push_eq_error_iff.1 pushed with ⟨full, rfl⟩ | ⟨room, invalid⟩
    · by_cases may : deep
      · exact .inl ⟨may, rfl⟩
      · rw [h.nests.depth_eq may] at full
        exact .inr (.inl ⟨_, rfl, Context.push_eq_error_iff.2 (.inl ⟨full, rfl⟩)⟩)
    · refine .inr (.inl ⟨fault, rfl, Context.push_eq_error_iff.2 (.inr ⟨?_, ?_⟩)⟩)
      · exact Nat.lt_of_le_of_lt h.nests.depth_le room
      · rwa [← h.nests.policy]
  | ok inner =>
    obtain ⟨room, valid, rfl⟩ := Context.push_eq_ok_iff.1 pushed
    refine .inr (.inr ⟨_, _, rfl, Context.push_eq_ok_iff.2 ⟨?_, ?_, rfl⟩, ?_⟩)
    · exact Nat.lt_of_le_of_lt h.nests.depth_le room
    · rwa [← h.nests.policy]
    · exact ⟨Context.bind_eq_of_forget h.left bindings, Context.bind_eq_of_forget h.right bindings,
        h.nests.scope.bind bindings, h.history⟩

lemma leave {bindings : List Binding}
    (h : Nests deep (w.1.scope.bind bindings, w.2.scope.bind bindings) s t) :
    Nests deep w (s.within .leave) (t.within .leave) where
  left := by simpa [Context.leave] using Context.leave_eq_of_forget h.left
  right := by simpa [Context.leave] using Context.leave_eq_of_forget h.right
  nests := h.nests.leave h.left h.right
  history := h.history

variable {n f : Context}

lemma layer (h : Nests deep (n, f) s t) (l : Layer) :
    Nests deep (.layer l n, .layer l f) (s.within (.layer l)) (t.within (.layer l)) where
  left := congrArg (Context.layer l) h.left
  right := congrArg (Context.layer l) h.right
  nests := h.nests.layer l
  history := h.history

lemma scope (h : Nests deep (n, f) s t) :
    Nests deep (.scope n, .scope f) (s.within .scope) (t.within .scope) where
  left := congrArg Context.scope h.left
  right := congrArg Context.scope h.right
  nests := h.nests.scope
  history := h.history

lemma binding {b b' d d' : Binding} (h : Nests deep (n, f) s t) (left : d.forget = b.forget)
    (right : d'.forget = b'.forget) (name : d.name = d'.name) (content : d.content = d'.content) :
    Nests deep (.binding b n, .binding b' f) (s.within (.binding d)) (t.within (.binding d')) where
  left := by simp [Context.forget, left, h.left]
  right := by simp [Context.forget, right, h.right]
  nests := .binding name content h.nests
  history := h.history

/-- The first state has a layer of its own. -/
lemma idle (h : Nests deep (n, f) s t) : Nests deep (.layer {} n, f) (s.within (.layer {})) t where
  left := congrArg (Context.layer {}) h.left
  right := h.right
  nests := h.nests.idle
  history := h.history

/-- The deeper state has a scope of its own. -/
lemma extra (may : deep) (h : Nests deep (n, f) s t) :
    Nests deep (.scope n, f) (s.within .scope) t where
  left := congrArg Context.scope h.left
  right := h.right
  nests := h.nests.extra may
  history := h.history

end State.Nests

/-- Evaluation in two contexts of which one nests the other. If it may be deeper, it may fail for
want of room. -/
def Simulation.nesting (deep : Prop) (excused spared : Failure → Prop)
    (full : deep → excused (.fault (.evaluation .nestingTooDeep))) :
    Simulation (Context × Context) where
  toStock := .all
  Relates := State.Nests deep
  excused := excused
  spared := spared
  Opens w bindings w' := w' = (w.1.scope.bind bindings, w.2.scope.bind bindings)
  Knows _ := True
  capabilities related := related.nests.sameCapabilities
  push {_ _ _ bindings} related _ := by
    rcases related.push bindings with ⟨may, none⟩ | same | ⟨c, d, left, right, inner⟩
    · exact .inl ⟨_, full may, none⟩
    · exact .inr (.inr (.inl same))
    · exact .inr (.inr (.inr ⟨c, d, _, left, right, rfl, inner⟩))
  leave := by
    rintro w _ s t bindings rfl related
    exact related.leave
  execute _ related _ := by rw [related.history]
  record _ related :=
    ⟨related.left, related.right, related.nests, congrArg (List.cons _) related.history⟩
  executed _ _ _ := trivial
  known _ _ := trivial
  keeps _ := Stock.function_all _
  convert _ _ _ := trivial
  parse _ _ _ := trivial

namespace Simulation.nesting

variable {deep : Prop} {excused spared : Failure → Prop}
  {full : deep → excused (.fault (.evaluation .nestingTooDeep))} {left right : ℕ → Evaluator}

/-- Bindings of the same expression are read alike. -/
lemma meets_read (h : (nesting deep excused spared full).Tracks left right) {b b' : Binding}
    {n f : Context} (nests : n.Nests deep f) (name : b.name = b'.name)
    (content : b.content = b'.content) (history : List Execution) :
    (nesting deep excused spared full).Meets (.binding b n, .binding b' f)
      (fun i => b.read (left i) n history) (fun i => b'.read (right i) f history)
      (fun _ => True) := by
  have both := Context.Nests.binding name content nests
  refine meets_readWith content ⟨rfl, rfl, both, rfl⟩ fun e _ => ?_
  refine (h (n, f) e trivial ⟨n, history⟩ ⟨f, history⟩ ⟨rfl, rfl, nests, rfl⟩).within
    (f := fun outcome => .binding (b.settle n outcome))
    (g := fun outcome => .binding (b'.settle f outcome)) fun outcome s t _ _ met => ?_
  obtain ⟨name', content'⟩ := nests.settle name content outcome
  exact met.binding (b.forget_settle _ _) (b'.forget_settle _ _) name' content'

/-- Names are found alike: a scope opened on one side only is passed through. -/
lemma meets_find (h : (nesting deep excused spared full).Tracks left right) {n f : Context}
    (nests : n.Nests deep f) (name : String) (history : List Execution) :
    (nesting deep excused spared full).Meets (n, f)
      (fun i => n.find (Binding.read (left i)) name history)
      (fun i => f.find (Binding.read (right i)) name history) (fun _ => True) := by
  induction nests with
  | bare => exact meets_const ⟨rfl, rfl, .bare, rfl⟩ fun _ _ => trivial
  | root r => exact meets_const ⟨rfl, rfl, .root r, rfl⟩ fun _ _ => trivial
  | layer l _ ih =>
    exact ih.within (f := fun _ => .layer l) (g := fun _ => .layer l)
      fun _ s t _ _ met => met.layer l
  | scope _ ih =>
    exact ih.within (f := fun _ => .scope) (g := fun _ => .scope) fun _ s t _ _ met => met.scope
  | @binding b b' n f same content below ih =>
    simp only [Context.find, same, below.policy]
    split
    · exact meets_read h below same content history
    · exact ih.within (f := fun _ => .binding b) (g := fun _ => .binding b')
        fun _ s t _ _ met => met.binding rfl rfl same content
  | idle _ ih =>
    -- From here on only the first side has something to pass through.
    exact ih.within (f := fun _ => .layer {}) (g := fun _ => id) fun _ s t _ _ met => met.idle
  | extra may _ ih =>
    exact ih.within (f := fun _ => .scope) (g := fun _ => id) fun _ s t _ _ met => met.extra may

lemma follows_find (h : (nesting deep excused spared full).Tracks left right)
    (w : Context × Context) (name : String) :
    (nesting deep excused spared full).Follows w (fun i => find (Binding.read (left i)) name)
      (fun i => find (Binding.read (right i)) name) (fun _ => True) := by
  rintro ⟨n, history⟩ ⟨f, _⟩ ⟨left, right, nests, rfl⟩
  refine (meets_find h nests name history).within (f := fun _ => id) (g := fun _ => id) ?_
  rintro _ s t _ _ ⟨left', right', nests', same⟩
  exact ⟨left'.trans left, right'.trans right, nests', same⟩

/-- What an expression answers in the deeper context it answers in the other one, after the same
executions, unless there is no room, which can only be if there are scopes to take it. -/
lemma full_or_answers_of_nested {n f : Context} (nests : n.Nests deep f) {e : Expr}
    {history : List Execution} {outcome : Except Fault Value} {s : State}
    (h : e.Answers ⟨n, history⟩ outcome s) :
    (deep ∧ outcome = .error (.evaluation .nestingTooDeep)) ∨
    ∃ t, s.history = t.history ∧ e.Answers ⟨f, history⟩ outcome t := by
  have tracks := tracks_evaluateBy Binding.read Binding.read
    (S := nesting deep
      (fun x => x = .exhausted ∨ (deep ∧ x = .fault (.evaluation .nestingTooDeep)))
      (fun _ => False) fun may => .inr ⟨may, rfl⟩) (.inl rfl)
    fun _ tracks w name => follows_find tracks w name
  simp only [Expr.Answers, Expr.evaluate_eq_evaluateBy] at h ⊢
  rcases Tracks.answersBy tracks (w := (n, f)) (s := ⟨n, history⟩) (t := ⟨f, history⟩) trivial
    ⟨rfl, rfl, nests, rfl⟩ h with ⟨_, rfl | ⟨may, rfl⟩, failed⟩ | ⟨_, ⟨⟩, _⟩ |
      ⟨t, related, answers⟩
  · exact absurd failed (mapError_fault_ne_exhausted outcome)
  · exact .inl ⟨may, mapError_fault_injective failed⟩
  · exact .inr ⟨t, related.history, answers⟩

/-- What an expression answers in a context it answers in a deeper one, after the same executions,
unless there is no room, which can only be if there are scopes to take it. -/
lemma full_or_answers_of_flat {n f : Context} (nests : n.Nests deep f) {e : Expr}
    {history : List Execution} {outcome : Except Fault Value} {t : State}
    (h : e.Answers ⟨f, history⟩ outcome t) :
    (deep ∧ ∃ s, e.Answers ⟨n, history⟩ (.error (.evaluation .nestingTooDeep)) s) ∨
    ∃ s, s.history = t.history ∧ e.Answers ⟨n, history⟩ outcome s := by
  have tracks := tracks_evaluateBy Binding.read Binding.read
    (S := (nesting deep (fun x => deep ∧ x = .fault (.evaluation .nestingTooDeep))
      (· = .exhausted) fun may => ⟨may, rfl⟩).symm) rfl
    fun _ tracks w name => (follows_find tracks.symm w name).symm
  simp only [Expr.Answers, Expr.evaluate_eq_evaluateBy] at h ⊢
  rcases Tracks.answersBy tracks (w := (n, f)) (s := ⟨f, history⟩) (t := ⟨n, history⟩) trivial
    ⟨rfl, rfl, nests, rfl⟩ h with ⟨_, rfl, failed⟩ | ⟨_, ⟨may, rfl⟩, eventually⟩ |
      ⟨s, related, answers⟩
  · exact absurd failed (mapError_fault_ne_exhausted outcome)
  · obtain ⟨depth, failed⟩ := eventually.exists
    exact .inl ⟨may, _, depth, Prod.ext failed rfl⟩
  · exact .inr ⟨s, related.history, answers⟩

variable {n f : Context} {e : Expr} {history : List Execution} {outcome : Except Fault Value}

/-- Unless it fails for want of room, what an expression answers in the deeper context it answers in
the other one, after the same executions. -/
theorem answers_of_nested (nests : n.Nests deep f) {s : State}
    (h : e.Answers ⟨n, history⟩ outcome s) :
    outcome = .error (.evaluation .nestingTooDeep) ∨
    ∃ t, s.history = t.history ∧ e.Answers ⟨f, history⟩ outcome t :=
  (full_or_answers_of_nested nests h).imp_left And.right

/-- What an expression answers in a context it answers in a deeper one, after the same executions,
unless there is no room. -/
theorem answers_of_flat (nests : n.Nests deep f) {t : State}
    (h : e.Answers ⟨f, history⟩ outcome t) :
    (∃ s, e.Answers ⟨n, history⟩ (.error (.evaluation .nestingTooDeep)) s) ∨
    ∃ s, s.history = t.history ∧ e.Answers ⟨n, history⟩ outcome s :=
  (full_or_answers_of_flat nests h).imp_left And.right

/-- Unless the deeper context has no room, an expression has the same outcomes in both, after the
same executions. -/
theorem full_or_answers_iff (nests : n.Nests deep f) (e : Expr) (history : List Execution) :
    (deep ∧ ∃ s, e.Answers ⟨n, history⟩ (.error (.evaluation .nestingTooDeep)) s) ∨
    ∀ outcome executions,
      (∃ s, e.Answers ⟨n, history⟩ outcome s ∧ s.history = executions) ↔
        ∃ t, e.Answers ⟨f, history⟩ outcome t ∧ t.history = executions := by
  by_cases full : deep ∧ ∃ s, e.Answers ⟨n, history⟩ (.error (.evaluation .nestingTooDeep)) s
  · exact .inl full
  refine .inr fun outcome executions => ?_
  constructor
  · rintro ⟨s, answers, rfl⟩
    rcases full_or_answers_of_nested nests answers with ⟨may, rfl⟩ | ⟨t, same, answers⟩
    · exact absurd ⟨may, s, answers⟩ full
    · exact ⟨t, answers, same.symm⟩
  · rintro ⟨t, answers, rfl⟩
    rcases full_or_answers_of_flat nests answers with full' | ⟨s, same, answers⟩
    · exact absurd full' full
    · exact ⟨s, answers, same⟩

end Simulation.nesting

end Formula
