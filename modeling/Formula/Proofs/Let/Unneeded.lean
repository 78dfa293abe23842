import Formula.Proofs.Let.Flat
import Formula.Proofs.Memo.Passive
import Mathlib.Data.List.Forall2

/-!
# Values that a `LET` does not need

What a `LET` binds is evaluated when a name is looked up, and whatever fails on the way fails as a
whole. A `LET` that has a value although one of its value expressions cannot have any has therefore
not come to that expression, and has the same value with any other expression in its place.

Two contexts are compared, of which one holds an expression without a value where the other one
holds anything. As long as the first evaluation does not fail, the second one goes the same way.
-/

namespace Formula

open Evaluation Filter Simulation

/-! ### Bindings that cannot be read -/

/-- That an expression has no value in any context with stateless functions. -/
def Expr.Fails (e : Expr) : Prop :=
  ∀ ⦃c : Context⦄, c.registry.IsStateless → ∀ history v t, ¬ e.Answers ⟨c, history⟩ (.ok v) t

/-- A spread stands for nothing outside of a list of arguments. -/
lemma Expr.fails_spread (e : Expr) : (Expr.spread e).Fails := by
  intro c _ history v t answers
  obtain ⟨depth, run⟩ := answers_iff_step.1 answers
  cases run

/-- That a binding is another one, up to an expression without a value that it may hold. -/
structure Binding.MendedBy (b b' : Binding) : Prop where
  name : b.name = b'.name
  position : b.position = b'.position
  content : b.content = b'.content ∨ ∃ e, b.content = .deferred e none ∧ e.Fails

/-- That a context is another one, up to expressions without a value that its bindings may hold. -/
inductive Context.MendedBy : Context → Context → Prop
  | bare : MendedBy .bare .bare
  | root (r : Root) : MendedBy (.root r) (.root r)
  | layer (l : Layer) {c d : Context} (below : MendedBy c d) : MendedBy (.layer l c) (.layer l d)
  | scope {c d : Context} (parent : MendedBy c d) : MendedBy (.scope c) (.scope d)
  | binding {b b' : Binding} {c d : Context} (mended : b.MendedBy b') (below : MendedBy c d) :
      MendedBy (.binding b c) (.binding b' d)

@[refl]
lemma Binding.MendedBy.refl (b : Binding) : b.MendedBy b := ⟨rfl, rfl, .inl rfl⟩

namespace Context.MendedBy

variable {c d : Context} {bindings bindings' : List Binding}

@[refl]
lemma refl (c : Context) : c.MendedBy c := by
  induction c with
  | bare => exact .bare
  | root r => exact .root r
  | layer l below ih => exact .layer l ih
  | scope parent ih => exact .scope ih
  | binding b below ih => exact .binding (.refl b) ih

lemma bind (h : c.MendedBy d) (mended : List.Forall₂ Binding.MendedBy bindings bindings') :
    (c.bind bindings).MendedBy (d.bind bindings') := by
  induction mended generalizing c d with
  | nil => exact h
  | cons first _ ih => exact ih (.binding first h)

lemma leave (h : c.MendedBy d) : c.leave.MendedBy d.leave := by
  induction h with
  | bare => exact .bare
  | root r => exact .root r
  | layer l below _ => exact .layer l below
  | scope parent _ => exact parent
  | binding _ _ ih => exact ih

lemma depth_eq (h : c.MendedBy d) : c.depth = d.depth := by
  induction h with
  | bare | root => rfl
  | layer _ _ ih => exact ih
  | scope _ ih => exact congrArg (· + 1) ih
  | binding _ _ ih => exact ih

lemma sameCapabilities (h : c.MendedBy d) : c.SameCapabilities d := by
  induction h with
  | bare | root => rfl
  | layer l _ ih => exact ih.layer l
  | scope _ ih => exact ih.scope
  | binding mended _ ih => exact ih.binding mended.name

lemma policy_eq (h : c.MendedBy d) : c.policy = d.policy := h.sameCapabilities.policy

/-- A scope that can be opened can be opened with mended bindings, too. -/
lemma push {inner : Context} (h : c.MendedBy d)
    (mended : List.Forall₂ Binding.MendedBy bindings bindings')
    (pushed : c.push bindings = .ok inner) :
    ∃ inner', d.push bindings' = .ok inner' ∧ inner.MendedBy inner' := by
  have named : (bindings.map fun b => (b.name, b.position)) =
      bindings'.map fun b => (b.name, b.position) := by
    clear pushed
    induction mended with
    | nil => rfl
    | cons first _ ih => simp only [List.map_cons, ih, first.name, first.position]
  obtain ⟨room, valid, rfl⟩ := push_eq_ok_iff.1 pushed
  rw [h.depth_eq] at room
  rw [h.policy_eq, named] at valid
  exact ⟨_, push_eq_ok_iff.2 ⟨room, valid, rfl⟩, h.scope.bind mended⟩

end Context.MendedBy

/-! ### The simulation -/

/-- Evaluation in two contexts of which the second one mends the first one, over stateless
functions. Whenever the first one fails, the second one is free to do anything. -/
def Simulation.mending : Simulation Unit where
  toStock := .all
  Relates _ s t := s.context.MendedBy t.context ∧ s.context.registry.IsStateless
  excused _ := True
  spared _ := False
  Opens _ _ _ := True
  Knows f := f.IsStateless
  capabilities related := related.1.sameCapabilities
  push {_ s _ bindings} related _ := by
    obtain ⟨mended, stateless⟩ := related
    cases pushed : s.context.push bindings with
    | error fault => exact .inl ⟨fault, trivial, rfl⟩
    | ok inner =>
      obtain ⟨inner', pushed', mended'⟩ :=
        mended.push (List.forall₂_same.2 fun b _ => .refl b) pushed
      refine .inr (.inr (.inr ⟨inner, inner', (), rfl, pushed', trivial, mended', ?_⟩))
      rwa [Context.registry_of_push pushed]
  leave _ related := ⟨related.1.leave, by simpa using related.2⟩
  execute values _ stateless := stateless _ _ values
  record _ related := related
  executed _ _ _ := trivial
  known {_ _ _ name f} related found := related.2 name f (Context.get?_of_function? found)
  keeps _ := Stock.function_all _
  convert _ _ _ := trivial
  parse _ _ _ := trivial

namespace Simulation.mending

variable {evaluate : Evaluator} {other : ℕ → Evaluator} {c d : Context}

/-- That an evaluator finds no value for what has none. -/
def Respects (evaluate : Evaluator) : Prop :=
  ∀ ⦃e : Expr⦄, e.Fails → ∀ ⦃c : Context⦄, c.registry.IsStateless → ∀ history,
    ∃ failure, ((evaluate e).runFrom ⟨c, history⟩).1 = .error failure

/-- Reading a binding that was mended fails, and any other binding is read alike. -/
lemma meets_read (h : mending.Tracks (fun _ => evaluate) other) (respects : Respects evaluate)
    {b b' : Binding} (mended : b.MendedBy b') (below : c.MendedBy d)
    (stateless : c.registry.IsStateless) (history history' : List Execution) :
    mending.Meets () (fun _ => b.readPassively evaluate c history)
      (fun n => b'.readPassively (other n) d history') (fun _ => True) := by
  have both : (Context.binding b c).MendedBy (.binding b' d) := .binding mended below
  rcases mended.content with same | ⟨e, held, fails⟩
  · refine meets_readWith same ⟨both, stateless⟩ fun e _ => ?_
    refine (h () e trivial ⟨c, history⟩ ⟨d, history'⟩ ⟨below, stateless⟩).within
      (f := fun _ => .binding b) (g := fun _ => .binding b') ?_
    rintro _ s t _ _ ⟨below', stateless'⟩
    exact ⟨.binding mended below', stateless'⟩
  · obtain ⟨failure, run⟩ := respects fails stateless history
    simp only [Binding.readPassively, Binding.readWith, held]
    exact .inl ⟨failure, trivial, .of_forall fun _ => run⟩

/-- Names are found alike, unless what is found has no value. -/
lemma follows_find (h : mending.Tracks (fun _ => evaluate) other) (respects : Respects evaluate)
    (name : String) :
    mending.Follows () (fun _ => find (Binding.readPassively evaluate) name)
      (fun n => find (Binding.readPassively (other n)) name) (fun _ => True) := by
  rintro ⟨c, history⟩ ⟨d, history'⟩ ⟨(mended : c.MendedBy d), stateless⟩
  change mending.Meets () (fun _ => c.find (Binding.readPassively evaluate) name history)
    (fun n => d.find (Binding.readPassively (other n)) name history') fun _ => True
  induction mended with
  | bare => exact meets_const ⟨.bare, stateless⟩ fun _ _ => trivial
  | root r => exact meets_const ⟨.root r, stateless⟩ fun _ _ => trivial
  | layer l _ ih =>
    refine (ih stateless).within (f := fun _ => .layer l) (g := fun _ => .layer l) ?_
    rintro _ s t _ _ ⟨mended, stateless⟩
    exact ⟨.layer l mended, stateless⟩
  | scope _ ih =>
    refine (ih stateless).within (f := fun _ => .scope) (g := fun _ => .scope) ?_
    rintro _ s t _ _ ⟨mended, stateless⟩
    exact ⟨.scope mended, stateless⟩
  | @binding b b' c d mended below ih =>
    simp only [Context.find, mended.name, below.policy_eq]
    split
    · exact meets_read h respects mended below stateless history history'
    · refine (ih stateless).within (f := fun _ => .binding b) (g := fun _ => .binding b') ?_
      rintro _ s t _ _ ⟨below', stateless⟩
      exact ⟨.binding mended below', stateless⟩

lemma respects_evaluatePassively (depth : ℕ) : Respects (Expr.evaluatePassively depth) := by
  intro e fails c stateless history
  cases run : ((Expr.evaluatePassively depth e).runFrom ⟨c, history⟩).1 with
  | error failure => exact ⟨failure, rfl⟩
  | ok v =>
    have answers : e.AnswersPassively ⟨c, history⟩ (.ok v) _ := ⟨depth, Prod.ext run rfl⟩
    obtain ⟨t, answers⟩ := answers.answers (.refl c) stateless history
    exact absurd answers (fails stateless history v t)

/-- To every depth, expressions are evaluated alike. -/
lemma tracks (depth : ℕ) :
    mending.Tracks (fun _ => Expr.evaluatePassively depth) Expr.evaluatePassively :=
  tracks_evaluateBy _ _ trivial
    (fun depth tracks _ name => follows_find tracks (respects_evaluatePassively depth) name) depth

/-- The names of a `LET` are found alike. -/
lemma follows_letBindings (depth position : ℕ) (pairs : List Expr) :
    mending.Follows () (fun _ => Expr.letBindings (Expr.evaluatePassively depth) position pairs)
      (fun n => Expr.letBindings (Expr.evaluatePassively n) position pairs)
      (fun bindings => ∀ b ∈ bindings, mending.binding b) := by
  change mending.logic.Holds ()
    (fun i => Expr.letBindings (i.elim (fun _ => Expr.evaluatePassively depth)
      Expr.evaluatePassively) position pairs) fun bindings => ∀ b ∈ bindings, mending.binding b
  exact mending.logic.letBindings (fun _ _ => trivial) fun e _ => tracks depth () e trivial

/-- A scope with mended bindings. -/
lemma follows_inScope_mended {bindings bindings' : List Binding} {α : Type}
    {left right : ℕ → Evaluation α} {Q : α → Prop}
    (mended : List.Forall₂ Binding.MendedBy bindings bindings')
    (h : mending.Follows () left right Q) :
    mending.Follows () (fun n => inScope bindings (left n)) (fun n => inScope bindings' (right n))
      Q := by
  rintro s t ⟨outside, stateless⟩
  cases pushed : s.context.push bindings with
  | error fault =>
    exact .inl ⟨_, trivial, .of_forall fun n => congrArg Prod.fst (runFrom_inScope_of_error pushed)⟩
  | ok inner =>
    obtain ⟨inner', pushed', inside⟩ := outside.push mended pushed
    have stateless' : inner.registry.IsStateless := by
      rwa [Context.registry_of_push pushed]
    simp only [runFrom_inScope_of_ok pushed, runFrom_inScope_of_ok pushed']
    exact (h ⟨inner, s.history⟩ ⟨inner', t.history⟩ ⟨inside, stateless'⟩).within
      (f := fun _ => .leave) (g := fun _ => .leave)
      fun _ _ _ _ _ ⟨inside, stateless⟩ => ⟨inside.leave, by simpa using stateless⟩

end Simulation.mending

/-! ### One value in place of another -/

/-- The binding with an expression in place of what it holds. -/
def Binding.withValue (e : Expr) (b : Binding) : Binding := { b with content := .deferred e none }

lemma Binding.mendedBy_modify {failing : Expr} (fails : failing.Fails) (other : Expr)
    (bindings : List Binding) (i : ℕ) :
    List.Forall₂ Binding.MendedBy (bindings.modify i (Binding.withValue failing))
      (bindings.modify i (Binding.withValue other)) := by
  induction bindings generalizing i with
  | nil => simp
  | cons b bindings ih =>
    cases i with
    | zero =>
      have first : (b.withValue failing).MendedBy (b.withValue other) :=
        ⟨rfl, rfl, .inr ⟨failing, rfl, fails⟩⟩
      exact .cons first (List.forall₂_same.2 fun b _ => .refl b)
    | succ i => exact .cons (.refl b) (ih i)

namespace Expr

/-- Another value makes the same bindings but for that value, since none of the values is
evaluated. -/
lemma letBindings_set (evaluate : Evaluator) (position i : ℕ) (pairs : List Expr) (value : Expr) :
    letBindings evaluate position (pairs.set (2 * i + 1) value) =
      letBindings evaluate position pairs >>= fun bindings =>
        pure (bindings.modify i (Binding.withValue value)) := by
  match pairs, i with
  | [], i => simp [letBindings]
  | [name], i => simp [letBindings, fail]
  | name :: last :: rest, 0 => simp [letBindings, Binding.withValue]
  | name :: last :: rest, i + 1 =>
    have later := letBindings_set evaluate (position + 2) i rest value
    have moved : 2 * (i + 1) + 1 = 2 * i + 1 + 1 + 1 := by omega
    simp [moved, letBindings, later]

/-- A `LET` with another value binds another value and does the same otherwise. -/
lemma applyLet_set (evaluate : Evaluator) {pairs : List Expr} {i : ℕ}
    (inside : 2 * i + 1 < pairs.length) (body value : Expr) :
    Function.applyLet evaluate ((pairs ++ [body]).set (2 * i + 1) value) = (do
      let _ ← ofExcept (Function.letShape (pairs.length + 1))
      let bindings ← letBindings evaluate 1 pairs
      inScope (bindings.modify i (Binding.withValue value)) (evaluate body)) := by
  have some : pairs.set (2 * i + 1) value ≠ [] := by
    rw [ne_eq, List.set_eq_nil_iff]
    rintro rfl
    exact absurd inside (Nat.not_lt_zero _)
  rw [List.set_append_left _ _ inside, applyLet_concat evaluate some, List.length_set,
    letBindings_set]
  simp

/-- Whatever stands in place of an expression without a value, a `LET` goes the same way. -/
lemma follows_applyLet_set {pairs : List Expr} {i : ℕ} (inside : 2 * i + 1 < pairs.length)
    (body : Expr) {failing : Expr} (fails : failing.Fails) (other : Expr) (depth : ℕ) :
    mending.Follows ()
      (fun _ => Function.applyLet (evaluatePassively depth)
        ((pairs ++ [body]).set (2 * i + 1) failing))
      (fun n => Function.applyLet (evaluatePassively n) ((pairs ++ [body]).set (2 * i + 1) other))
      (fun _ => True) := by
  simp only [applyLet_set _ inside]
  refine follows_bind (mending.logic.ofExcept (Q := fun _ => True) fun _ _ => trivial) fun _ _ => ?_
  refine follows_bind (mending.follows_letBindings depth 1 pairs) fun bindings _ => ?_
  exact mending.follows_inScope_mended (Binding.mendedBy_modify fails other bindings i)
    (mending.tracks depth () body trivial)

variable {c : Context} {keyword : String} {s : State}

/-- A call answers what its `LET` comes to. -/
lemma answersPassively_call_let_iff {outcome : Except Fault Value} {t : State}
    (known : s.context.function? keyword = .ok (some .letForm)) (arguments : List Expr) :
    (Expr.call keyword arguments).AnswersPassively s outcome t ↔
      Reaches (fun n => Function.applyLet (evaluatePassively n) arguments) s outcome t := by
  constructor
  · rintro ⟨depth, run⟩
    cases depth with
    | zero => cases outcome <;> cases run
    | succ depth =>
      rw [evaluatePassively, evaluateBy, runFrom_call known] at run
      exact ⟨depth, run⟩
  · rintro ⟨depth, run⟩
    refine ⟨depth + 1, ?_⟩
    rw [evaluatePassively, evaluateBy, runFrom_call known]
    exact run

/-- **Values that a `LET` does not need do not matter.** Over stateless functions, when a `LET` has
a value although one of its value expressions has none in any context, it has the same value with
any other expression in that place. -/
theorem answers_let_of_fails {arguments : List Expr} {i : ℕ} {failing : Expr}
    {history : List Execution} {r : Value} {t : State} (stateless : c.registry.IsStateless)
    (known : c.function? keyword = .ok (some .letForm)) (inside : 2 * i + 2 < arguments.length)
    (fails : failing.Fails)
    (answers : (Expr.call keyword (arguments.set (2 * i + 1) failing)).Answers ⟨c, history⟩
      (.ok r) t) (other : Expr) :
    ∃ t, (Expr.call keyword (arguments.set (2 * i + 1) other)).Answers ⟨c, history⟩ (.ok r) t := by
  obtain ⟨pairs, body, rfl⟩ : ∃ pairs body, arguments = pairs ++ [body] := by
    rcases List.eq_nil_or_concat arguments with rfl | split
    · simp at inside
    · simpa using split
  have inside : 2 * i + 1 < pairs.length := by
    rw [List.length_append, List.length_singleton] at inside
    omega
  obtain ⟨t, -, answers⟩ := answers.passively (.refl c) stateless history
  obtain ⟨depth, run⟩ := (answersPassively_call_let_iff known _).1 answers
  have met := follows_applyLet_set inside body fails other depth ⟨c, history⟩ ⟨c, history⟩
    ⟨.refl c, stateless⟩
  simp only [run] at met
  rcases met with ⟨_, -, failed⟩ | ⟨_, ⟨⟩, _⟩ | ⟨outcome, _, t', -, -, left, right⟩
  · cases eventually_const.1 failed
  obtain ⟨rfl, -⟩ := Prod.mk.inj (eventually_const.1 left)
  have answers' := (answersPassively_call_let_iff (s := ⟨c, history⟩) known _).2 right.exists
  exact answers'.answers (.refl c) stateless history

/-- `LET(a, …NULL, NULL)`, whose first value is a bare spread, and `LET(a, x, NULL)`. -/
theorem answers_let_of_fails_spread :
    let c : Context := .root {}
    let arguments : List Expr := [.variable "a", .null, .null]
    c.registry.IsStateless ∧ c.function? "LET" = .ok (some .letForm) ∧
    2 * 0 + 2 < arguments.length ∧ (Expr.spread .null).Fails ∧
    (∃ t, (Expr.call "LET" (arguments.set (2 * 0 + 1) (.spread .null))).Answers ⟨c, []⟩ (.ok .null)
      t) ∧
    ∃ t, (Expr.call "LET" [.variable "a", .variable "x", .null]).Answers ⟨c, []⟩ (.ok .null) t := by
  intro c arguments
  have stateless : c.registry.IsStateless := Registry.isStateless_builtins
  have inside : 2 * 0 + 2 < arguments.length := by decide
  have fails : (Expr.spread .null).Fails := fails_spread .null
  have bindable : Bindable c.policy "LET" [("a", .spread .null)] := by
    refine ⟨?_, List.pairwise_singleton _ _, ?_⟩ <;> simp only [List.mem_singleton, forall_eq] <;>
      decide
  obtain ⟨t, answers⟩ : ∃ t, (Expr.call "LET" (arguments.set (2 * 0 + 1) (.spread .null))).Answers
      ⟨c, []⟩ (.ok .null) t :=
    ⟨_, (answers_letIn_iff rfl bindable (by decide)).2 ⟨_, ⟨1, rfl⟩, rfl⟩⟩
  exact ⟨stateless, rfl, inside, fails, ⟨t, answers⟩,
    answers_let_of_fails stateless rfl inside fails answers (.variable "x")⟩

end Expr

end Formula
