import Formula.Proofs.Memo.Growth
import Mathlib.Logic.Relation

/-!
# Kept once, or never

A binding is looked up from many contexts while its scope is open: from the scope, from scopes on
top of it, and, for the bindings declared later, from views of it. `Step` is any one thing that can
be done in between: an evaluation in any such context, or an execution by someone else. However many
steps are made, a binding that has got its value answers it without further work, and a binding
whose expression is not pure gets none.
-/

namespace Formula

/-! ### Contexts on top of a context -/

/-- A piece of a context. -/
inductive Frame where
  | layer (layer : Layer)
  | scope
  | binding (binding : Binding)

/-- Puts a piece on a context. -/
def Frame.on : Frame → Context → Context
  | .layer l, c => .layer l c
  | .scope, c => .scope c
  | .binding b, c => .binding b c

namespace Context

/-- A context under pieces, the first one on top. -/
def under (c : Context) (frames : List Frame) : Context := frames.foldr Frame.on c

/-- What is under the topmost piece. -/
def uncover : Context → Context
  | .layer _ below => below
  | .scope parent => parent
  | .binding _ below => below
  | c => c

/-- What is under a number of pieces. -/
def beneath : Context → (count : ℕ) → Context
  | c, 0 => c
  | c, count + 1 => c.uncover.beneath count

@[simp] lemma beneath_under (c : Context) (frames : List Frame) :
    (c.under frames).beneath frames.length = c := by
  induction frames with
  | nil => rfl
  | cons f fs ih => cases f <;> exact ih

/-- That a name leads through pieces to the context under them: none of them binds it. -/
def Reaches (c : Context) (name : String) : List Frame → Prop
  | [] => True
  | .binding b :: fs =>
    (c.under fs).policy.namesEqual b.name name = false ∧ c.Reaches name fs
  | _ :: fs => c.Reaches name fs

/-- A name that leads to a context is looked up there. -/
lemma lookup_under {c : Context} {name : String} {frames : List Frame}
    (h : c.Reaches name frames) (evaluate : Evaluator) (history : List Execution) :
    (c.under frames).lookup evaluate name history =
      ((c.lookup evaluate name history).1,
        (c.lookup evaluate name history).2.within (·.under frames)) := by
  induction frames with
  | nil => rfl
  | cons f fs ih =>
    cases f with
    | layer l =>
      change (Context.layer l (c.under fs)).lookup evaluate name history = _
      rw [lookup, ih h]
      rfl
    | scope =>
      change (Context.scope (c.under fs)).lookup evaluate name history = _
      rw [lookup, ih h]
      rfl
    | binding b =>
      change (Context.binding b (c.under fs)).lookup evaluate name history = _
      rw [lookup, ih h.2, if_neg (by simp [h.1])]
      rfl

namespace Grows

variable {c d : Context}

lemma under (h : c.Grows d) (frames : List Frame) : (c.under frames).Grows (d.under frames) := by
  induction frames with
  | nil => exact h
  | cons f fs ih =>
    cases f with
    | layer l => exact .layer l ih
    | scope => exact .scope ih
    | binding b => exact .same b ih

lemma uncover (h : c.Grows d) : c.uncover.Grows d.uncover := by
  cases h with
  | bare => exact .bare
  | root r => exact .root r
  | layer _ below => exact below
  | scope parent => exact parent
  | same _ below => exact below
  | filled below _ _ => exact below

lemma beneath (h : c.Grows d) (count : ℕ) : (c.beneath count).Grows (d.beneath count) := by
  induction count generalizing c d with
  | zero => exact h
  | succ count ih => exact ih h.uncover

end Grows

end Context

/-! ### Steps -/

/-- What may be done in a context, in a view of it or in a context on top of either, which is then
left again: an evaluation, or an execution by someone else. -/
inductive Step : State → State → Prop
  -- the state's context is `c.under above`: what is `above` is taken off, `frames` are put on in its
  -- place, and after the evaluation it is the other way round
  | evaluates {c : Context} {history : List Execution} (above frames : List Frame) (depth : ℕ)
      (e : Expr) : Step ⟨c.under above, history⟩
        (((Expr.evaluate depth e).runFrom ⟨c.under frames, history⟩).2.within
          fun d => (d.beneath frames.length).under above)
  | executes {s : State} (x : Execution) : Step s ⟨s.context, x :: s.history⟩

/-- Any number of steps. -/
abbrev Steps : State → State → Prop := Relation.ReflTransGen Step

/-- One step lets the context grow. -/
lemma Step.grows {s t : State} (h : Step s t) : s.context.Grows t.context := by
  cases h with
  | @evaluates c history above frames depth e =>
    have grows := (Expr.grows_evaluate depth e ⟨c.under frames, history⟩ trivial).1
    have inner := Context.Grows.beneath grows frames.length
    rw [Context.beneath_under] at inner
    exact inner.under above
  | executes x => exact .refl _

/-- Any number of steps lets the context grow. -/
lemma Steps.grows {s t : State} (h : Steps s t) : s.context.Grows t.context := by
  induction h with
  | refl => exact .refl _
  | tail _ step ih => exact ih.trans step.grows

/-! ### Look-ups of a binding -/

/-- That a look-up of the binding on top of a context, under any name that leads to it and from any
context on top, comes to an outcome and leaves a state behind. -/
inductive State.LooksUp : State → Except Failure Value → State → Prop
  | mk {b : Binding} {below : Context} {history : List Execution} (frames : List Frame)
      (name : String) (depth : ℕ) (reaches : (Context.binding b below).Reaches name frames)
      (found : below.policy.namesEqual b.name name = true) :
      LooksUp ⟨.binding b below, history⟩
        (((Context.binding b below).under frames).lookup (Expr.evaluate depth) name history).1
        ((((Context.binding b below).under frames).lookup (Expr.evaluate depth) name
          history).2.within (·.beneath frames.length))

/-- A look-up is a step. -/
lemma State.LooksUp.step {s t : State} {outcome : Except Failure Value}
    (h : s.LooksUp outcome t) : Step s t := by
  cases h with
  | mk frames name depth reaches found =>
    exact Step.evaluates [] frames (depth + 1) (.variable name)

variable {b : Binding} {below : Context} {history : List Execution} {t : State}
  {outcome : Except Failure Value}

/-- A look-up comes to what reading the binding comes to. -/
lemma State.LooksUp.read (h : State.LooksUp ⟨.binding b below, history⟩ outcome t) :
    ∃ depth, b.read (Expr.evaluate depth) below history = (outcome, t) := by
  generalize start : (⟨.binding b below, history⟩ : State) = s at h
  cases h with
  | mk frames name depth reaches found =>
    cases start
    refine ⟨depth, ?_⟩
    rw [Context.lookup_under reaches, Context.lookup_eq_find, Context.find, if_pos found]
    simp [State.within]

/-- A look-up of a binding with a value answers it and does nothing else. -/
lemma State.LooksUp.of_kept {e : Expr} {v : Value} (content : b.content = .deferred e (some v))
    (h : State.LooksUp ⟨.binding b below, history⟩ outcome t) :
    outcome = .ok v ∧ t = ⟨.binding b below, history⟩ := by
  obtain ⟨depth, run⟩ := h.read
  simp only [Binding.read, content] at run
  cases run
  exact ⟨rfl, rfl⟩

/-- A look-up that succeeds leaves a value behind if the expression of the binding is pure. -/
lemma State.LooksUp.keeps {e : Expr} {memo : Option Value} {v : Value}
    (content : b.content = .deferred e memo) (pure : below.isPure e = .ok true)
    (h : State.LooksUp ⟨.binding b below, history⟩ (.ok v) t) :
    ∃ b' below', t.context = .binding b' below' ∧ b'.content = .deferred e (some v) := by
  obtain ⟨depth, run⟩ := h.read
  cases memo with
  | some w =>
    simp only [Binding.read, content] at run
    cases run
    exact ⟨b, below, rfl, content⟩
  | none =>
    simp only [Binding.read, content, Prod.mk.injEq] at run
    obtain ⟨value, rfl⟩ := run
    refine ⟨_, _, rfl, ?_⟩
    rw [value]
    simp [Binding.settle, content, pure, verdict]

/-- A look-up that fails leaves the binding as it was. -/
lemma State.LooksUp.of_error {e : Expr} {memo : Option Value} {failure : Failure}
    (content : b.content = .deferred e memo)
    (h : State.LooksUp ⟨.binding b below, history⟩ (.error failure) t) :
    ∃ below', t.context = .binding b below' := by
  obtain ⟨depth, run⟩ := h.read
  cases memo with
  | some w =>
    simp only [Binding.read, content] at run
    cases run
  | none =>
    simp only [Binding.read, content, Prod.mk.injEq] at run
    obtain ⟨failed, rfl⟩ := run
    have unsettled : b.settle below (.error failure) = b := by simp [Binding.settle, content]
    rw [State.within_context, failed, unsettled]
    exact ⟨_, rfl⟩

/-- Once a look-up of a pure deferred binding has succeeded, every later look-up answers the same
value, executes nothing and changes nothing. A deferred binding that is not pure never gets a value,
no look-up that fails gives it one, and it gets no other value than one that its expression was
evaluated to. -/
theorem Binding.kept_once_or_never {b : Binding} {below : Context} {e : Expr} {memo : Option Value}
    (content : b.content = .deferred e memo) (history : List Execution) :
    (below.isPure e = .ok true →
      ∀ v t, State.LooksUp ⟨.binding b below, history⟩ (.ok v) t →
        ∀ u, Steps t u → ∀ outcome w, u.LooksUp outcome w → outcome = .ok v ∧ w = u) ∧
    (below.isPure e ≠ .ok true →
      ∀ u, Steps ⟨.binding b below, history⟩ u → ∃ below', u.context = .binding b below') ∧
    (∀ failure t, State.LooksUp ⟨.binding b below, history⟩ (.error failure) t →
      ∃ below', t.context = .binding b below') ∧
    (∀ u, Steps ⟨.binding b below, history⟩ u → (∃ below', u.context = .binding b below') ∨
      memo = none ∧ ∃ v below', below.Yields e v ∧
        u.context = .binding { b with content := .deferred e (some v) } below') := by
  refine ⟨?once, ?never, fun _ _ failed => failed.of_error content,
    fun u steps => steps.grows.of_deferred content⟩
  case once =>
    rintro pure v ⟨c, executed⟩ found ⟨d, later⟩ steps outcome w again
    obtain ⟨b', below', rfl, kept⟩ := found.keeps content pure
    obtain ⟨below'', rfl⟩ | ⟨unkept, _⟩ := steps.grows.of_deferred kept
    · exact again.of_kept kept
    · cases unkept
  case never =>
    intro impure u steps
    obtain unchanged | ⟨_, v, below', yields, _⟩ := steps.grows.of_deferred content
    · exact unchanged
    · exact absurd yields.pure impure

/-- A function that declares itself pure and yet answers `TRUE` on its first execution only. -/
theorem Binding.kept_once_or_never_first :
    let first : HostFunction :=
      { name := "FIRST", execute := fun history _ => .ok (.boolean history.isEmpty) }
    let below : Context :=
      .scope (.root { registry := Registry.empty.insert "FIRST" (.host first) })
    let e : Expr := .call "FIRST" []
    let b : Binding := ⟨"a", 1, .deferred e none⟩
    let t : State :=
      ⟨.binding { b with content := .deferred e (some (.boolean true)) } below,
        [⟨"FIRST", true, []⟩]⟩
    b.content = .deferred e none ∧ below.isPure e = .ok true ∧
      State.LooksUp ⟨.binding b below, []⟩ (.ok (.boolean true)) t ∧
      ∀ u, Steps t u → ∀ outcome w, u.LooksUp outcome w →
        outcome = .ok (.boolean true) ∧ w = u := by
  intro first below e b t
  have pure : below.isPure e = .ok true := rfl
  have found : State.LooksUp ⟨.binding b below, []⟩ (.ok (.boolean true)) t :=
    .mk [] "a" 2 trivial rfl
  have once := (kept_once_or_never (b := b) rfl []).1 pure
  exact ⟨rfl, pure, found, once _ t found⟩

end Formula
