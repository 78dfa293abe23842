import Formula.Proofs.Evaluation.Depth

/-!
# Evaluations that end

An evaluation ends when, from some depth on, it is not exhausted any more. That every expression has
such a depth is shown in three steps. Within a context, the parts of an expression are smaller than
the expression. A scope leaves less room for further scopes than there was before. A name leads back
to a context that may have more room, but only to one that was there before: it lies under a binding
of the context in which the name is looked up.
-/

namespace Formula

open Evaluation Filter

variable {Knows : Function → Prop} {c d : Context}

/-! ### Convergence -/

/-- That a context differs from another one in kept values only, and has no other functions than
those that are known. -/
structure Context.Shows (Knows : Function → Prop) (c d : Context) : Prop where
  alike : d.forget = c.forget
  known : d.registry.All Knows

lemma Context.Shows.bind (h : c.Shows Knows d) (bindings : List Binding) :
    (c.scope.bind bindings).Shows Knows (d.scope.bind bindings) where
  alike := bind_eq_of_forget h.alike bindings
  known := by simpa [registry] using h.known

lemma Context.Shows.leave {bindings : List Binding} (h : (c.scope.bind bindings).Shows Knows d) :
    c.Shows Knows d.leave where
  alike := by simpa [Context.leave] using leave_eq_of_forget h.alike
  known := by simpa using h.known

/-- That a family of evaluations comes, from some depth on, to an outcome that is not a lack of
depth, with a property of the answer. -/
def Converges (Knows : Function → Prop) (c : Context) {α : Type} (work : ℕ → Evaluation α)
    (Q : α → Prop) : Prop :=
  ∀ s, c.Shows Knows s.context → ∃ (outcome : Except Fault α) (t : State),
    c.Shows Knows t.context ∧ (∀ a, outcome = .ok a → Q a) ∧
      ∀ᶠ n in atTop, (work n).runFrom s = (outcome.mapError .fault, t)

namespace Converges

variable {α β : Type} {work : ℕ → Evaluation α} {Q : α → Prop}

lemma pure {a : α} (h : Q a) : Converges Knows c (fun _ => Pure.pure a) Q := by
  intro s shows
  refine ⟨.ok a, s, shows, ?_, .of_forall fun _ => rfl⟩
  rintro b ⟨⟩
  exact h

lemma fail {fault : Fault} : Converges Knows c (fun _ => Evaluation.fail fault) Q := by
  intro s shows
  refine ⟨.error fault, s, shows, ?_, .of_forall fun _ => rfl⟩
  rintro b ⟨⟩

lemma bind {next : ℕ → α → Evaluation β} {R : β → Prop} (first : Converges Knows c work Q)
    (second : ∀ a, Q a → Converges Knows c (fun n => next n a) R) :
    Converges Knows c (fun n => work n >>= next n) R := by
  intro s shows
  obtain ⟨outcome, t, shows', good, run⟩ := first s shows
  cases outcome with
  | error fault =>
    refine ⟨.error fault, t, shows', fun b hb => by simp at hb, ?_⟩
    filter_upwards [run] with n hn
    rw [runFrom_bind_of_error (congrArg Prod.fst hn), hn]
    rfl
  | ok a =>
    obtain ⟨outcome, u, shows'', good', run'⟩ := second a (good a rfl) t shows'
    refine ⟨outcome, u, shows'', good', ?_⟩
    filter_upwards [run, run'] with n hn hn'
    rwa [runFrom_bind_of_ok hn]

lemma ask {f : Context → Except Fault α}
    (answer : ∀ d a, c.Shows Knows d → f d = .ok a → Q a) :
    Converges Knows c (fun _ => context >>= fun d => Evaluation.ofExcept (f d)) Q := by
  intro s shows
  refine ⟨f s.context, s, shows, fun a ha => answer s.context a shows ha, .of_forall fun _ => ?_⟩
  rw [runFrom_bind_of_ok (runFrom_context s), runFrom_ofExcept]

/-- A scope is entered only when there is room for it. -/
lemma inScope {bindings : List Binding}
    (h : c.depth < maxScopeDepth → Converges Knows (c.scope.bind bindings) work Q) :
    Converges Knows c (fun n => Evaluation.inScope bindings (work n)) Q := by
  intro s shows
  cases pushed : s.context.push bindings with
  | error fault =>
    refine ⟨.error fault, s, shows, fun a ha => by simp at ha, .of_forall fun _ => ?_⟩
    exact runFrom_inScope_of_error pushed
  | ok inner =>
    obtain ⟨room, _, rfl⟩ := Context.push_eq_ok_iff.1 pushed
    rw [Context.depth_eq_of_forget shows.alike] at room
    obtain ⟨outcome, t, shows', good, run⟩ := h room ⟨s.context.scope.bind bindings, s.history⟩
      (shows.bind bindings)
    refine ⟨outcome, t.within .leave, shows'.leave, good, ?_⟩
    filter_upwards [run] with n hn
    rw [runFrom_inScope_of_ok pushed, hn]

lemma execute {f : HostFunction} {values : List Value} :
    Converges Knows c (fun _ => Evaluation.execute f values) (fun _ => True) := by
  intro s shows
  refine ⟨f.execute s.history values, ⟨s.context, ⟨f.name, f.pure, values⟩ :: s.history⟩, shows,
    fun _ _ => trivial, .of_forall fun _ => ?_⟩
  exact runFrom_execute f values s

lemma of_succ (h : Converges Knows c (fun n => work (n + 1)) Q) : Converges Knows c work Q := by
  intro s shows
  obtain ⟨outcome, t, shows', good, run⟩ := h s shows
  exact ⟨outcome, t, shows', good, eventually_of_succ run⟩

/-- Convergence as a logic, over functions that are known. -/
def logic (Knows : Function → Prop) : Logic ℕ Context where
  toStock := .all
  Holds c _ work Q := Converges Knows c work Q
  Seen c d := c.Shows Knows d
  Opens c bindings d := d = c.scope.bind bindings ∧ c.depth < maxScopeDepth
  Knows := Knows
  weighed _ := True
  pure := pure
  fail := fail
  bind := bind
  ask _ answer := ask answer
  inScope _ h := inScope fun room => h _ ⟨rfl, room⟩
  execute _ _ _ := execute
  known shows _ found := shows.known _ _ (Context.get?_of_function? found)
  keeps _ := Stock.function_all _
  convert _ _ _ := trivial
  parse _ _ _ := trivial

end Converges

/-! ### Evaluators that end -/

/-- That every expression converges in a context. -/
def Ends (Knows : Function → Prop) (evaluate : ℕ → Evaluator) (c : Context) : Prop :=
  ∀ e, Converges Knows c (fun n => evaluate n e) fun _ => True

/-- That every expression converges in the view of every binding. -/
def ViewsEnd (Knows : Function → Prop) (evaluate : ℕ → Evaluator) (c : Context) : Prop :=
  c.Each fun _ below => Ends Knows evaluate below

section

variable {evaluate : ℕ → Evaluator}

/-- Reading a binding ends when evaluation in its view does. -/
lemma converges_read {b : Binding} {below : Context} (h : Ends Knows evaluate c)
    (shows : c.Shows Knows below) (history : List Execution) :
    ∃ (outcome : Except Fault Value) (b' : Binding) (t : State), b'.forget = b.forget ∧
      c.Shows Knows t.context ∧ ∀ᶠ n in atTop, b.read (evaluate n) below history =
        (outcome.mapError .fault, t.within (.binding b')) := by
  cases content : b.content with
  | ready v =>
    simp only [Binding.read, content]
    exact ⟨.ok v, b, ⟨below, history⟩, rfl, shows, .of_forall fun _ => rfl⟩
  | deferred e memo =>
    cases memo with
    | some v =>
      simp only [Binding.read, content]
      exact ⟨.ok v, b, ⟨below, history⟩, rfl, shows, .of_forall fun _ => rfl⟩
    | none =>
      obtain ⟨outcome, t, shows', _, run⟩ := h e ⟨below, history⟩ shows
      simp only [Binding.read, content]
      refine ⟨outcome, b.settle below (outcome.mapError .fault), t, by simp, shows', ?_⟩
      filter_upwards [run] with n hn
      rw [hn]

lemma converges_find (views : ViewsEnd Knows evaluate c) (name : String) :
    ∀ d history, c.Shows Knows d → ∃ (outcome : Except Fault Value) (t : State),
      c.Shows Knows t.context ∧ ∀ᶠ n in atTop,
        d.find (Binding.read (evaluate n)) name history = (outcome.mapError .fault, t) := by
  induction c with
  | bare =>
    rintro d history ⟨alike, known⟩
    cases d <;> simp [Context.forget] at alike
    exact ⟨.error (.unresolved name), _, ⟨rfl, known⟩, .of_forall fun _ => rfl⟩
  | root r =>
    rintro d history ⟨alike, known⟩
    cases d <;> simp [Context.forget] at alike
    subst alike
    exact ⟨Root.lookup _ name, _, ⟨rfl, known⟩, .of_forall fun _ => rfl⟩
  | layer l c ih =>
    rintro d history ⟨alike, known⟩
    obtain ⟨d, rfl, below⟩ := Context.eq_layer_of_forget alike
    obtain ⟨outcome, t, shows, run⟩ := ih views d history ⟨below, known⟩
    refine ⟨outcome, t.within (.layer l), ⟨?_, shows.known⟩, ?_⟩
    · simp [Context.forget, shows.alike]
    · filter_upwards [run] with n hn
      simp only [Context.find, hn]
  | scope c ih =>
    rintro d history ⟨alike, known⟩
    obtain ⟨d, rfl, below⟩ := Context.eq_scope_of_forget alike
    obtain ⟨outcome, t, shows, run⟩ := ih views d history ⟨below, known⟩
    refine ⟨outcome, t.within .scope, ⟨?_, shows.known⟩, ?_⟩
    · simp [Context.forget, shows.alike]
    · filter_upwards [run] with n hn
      simp only [Context.find, hn]
  | binding b c ih =>
    rintro d history ⟨alike, known⟩
    obtain ⟨b', d, rfl, same, below⟩ := Context.eq_binding_of_forget alike
    by_cases found : d.policy.namesEqual b'.name name = true
    · obtain ⟨outcome, b'', t, same', shows, run⟩ :=
        converges_read (b := b') views.1 ⟨below, known⟩ history
      refine ⟨outcome, t.within (.binding b''), ⟨?_, shows.known⟩, ?_⟩
      · simp [Context.forget, shows.alike, same, same']
      · filter_upwards [run] with n hn
        simp only [Context.find, if_pos found, hn]
    · obtain ⟨outcome, t, shows, run⟩ := ih views.2 d history ⟨below, known⟩
      refine ⟨outcome, t.within (.binding b'), ⟨?_, shows.known⟩, ?_⟩
      · simp [Context.forget, shows.alike, same]
      · filter_upwards [run] with n hn
        simp only [Context.find, if_neg found, hn]

/-- Looking up a name ends when evaluation in all views does. -/
lemma converges_lookup (views : ViewsEnd Knows evaluate c) (name : String) :
    Converges Knows c (fun n => Evaluation.lookup (evaluate n) name) fun _ => True := by
  rintro ⟨d, history⟩ shows
  obtain ⟨outcome, t, shows', run⟩ := converges_find views name d history shows
  refine ⟨outcome, t, shows', fun _ _ => trivial, ?_⟩
  simpa only [Evaluation.lookup_eq_find, Evaluation.runFrom_find] using run

end

section

variable {evaluate weigh : ℕ → Evaluator}
  (succ : ∀ depth e, evaluate (depth + 1) e =
    e.stepWeighing (Evaluation.lookup (evaluate depth)) (evaluate depth) (weigh depth))
  (criteria : ∀ r, Knows (.rangeReducer r) → ∀ c, Ends Knows weigh c)
include succ criteria

/-- Evaluation ends in a context when it does in all views and in the scopes that can be opened: the
parts of an expression are smaller. -/
lemma ends_of_scopes (views : ViewsEnd Knows evaluate c)
    (scopes : c.depth < maxScopeDepth → ∀ bindings, Ends Knows evaluate (c.scope.bind bindings)) :
    Ends Knows evaluate c := by
  intro e
  induction size : sizeOf e using Nat.strong_induction_on generalizing e with
  | _ size smaller =>
    subst size
    -- The logic asks for the names, the parts, the scopes and the criteria one after the other.
    apply Converges.of_succ
    simp only [succ]
    refine (Converges.logic Knows).stepWeighing trivial ?_ ?_ ?_ ?_
    · exact fun name _ => converges_lookup views name
    · exact fun p hp _ => smaller _ hp p rfl
    · rintro bindings _ _ ⟨rfl, room⟩ p _
      exact scopes room bindings p
    · exact fun r known p _ => criteria r known c p

omit succ criteria in
/-- Bindings are put on one by one, so every view of a scope is a scope with fewer bindings. -/
lemma viewsEnd_bind (h : ∀ d, d.depth = c.depth → ViewsEnd Knows evaluate d → Ends Knows evaluate d)
    (views : ViewsEnd Knows evaluate c) (bindings : List Binding) :
    ViewsEnd Knows evaluate (c.bind bindings) := by
  induction bindings generalizing c with
  | nil => exact views
  | cons b bs ih =>
    have inner : ViewsEnd Knows evaluate (.binding b c) := ⟨h c rfl views, views⟩
    exact ih h inner

/-- Evaluation ends in a context when it does in all views, whatever room is left for scopes. -/
lemma ends_of_viewsEnd (room : ℕ) :
    ∀ c, maxScopeDepth ≤ c.depth + room → ViewsEnd Knows evaluate c → Ends Knows evaluate c := by
  induction room with
  | zero =>
    intro c full views
    exact ends_of_scopes succ criteria views fun left => absurd left (Nat.not_lt.2 full)
  | succ room ih =>
    intro c full views
    refine ends_of_scopes succ criteria views fun _ bindings => ?_
    have enough : ∀ d : Context, d.depth = c.scope.depth → maxScopeDepth ≤ d.depth + room := by
      intro d same
      simp only [same, Context.depth]
      omega
    have opened : ViewsEnd Knows evaluate c.scope := views
    refine ih _ (enough _ (by simp)) ?_
    exact viewsEnd_bind (fun d same => ih d (enough d same)) opened bindings

/-- Evaluation ends in every context, by induction on what the context is built from. -/
theorem ends_of_step (c : Context) : Ends Knows evaluate c := by
  have ends : ∀ c, ViewsEnd Knows evaluate c → Ends Knows evaluate c := fun c =>
    ends_of_viewsEnd succ criteria maxScopeDepth c (Nat.le_add_left _ _)
  refine ends c ?_
  induction c with
  | bare => trivial
  | root r => trivial
  | layer l below ih => exact ih
  | scope parent ih => exact ih
  | binding b below ih => exact ⟨ends below ih, ih⟩

end

/-! ### Functions that weigh no criteria -/

/-- Whether a function weighs criteria, which are read from text while it runs. -/
def Function.Weighs : Function → Prop
  | .rangeReducer _ => True
  | _ => False

namespace Expr

/-- Evaluation ends in every context whose functions weigh no criteria. -/
lemma ends_evaluate (c : Context) : Ends (fun f => ¬ f.Weighs) evaluate c :=
  ends_of_step (fun _ e => (e.stepWeighing_self _ _).symm) (fun _ known => absurd trivial known) c

/-- Where no function weighs criteria, every expression has an answer, whatever the variables and
the bindings hold. -/
theorem answers_of_not_weighs {c : Context} (h : c.registry.All fun f => ¬ f.Weighs) (e : Expr)
    (history : List Execution) : ∃ outcome t, e.Answers ⟨c, history⟩ outcome t := by
  obtain ⟨outcome, t, _, _, run⟩ := ends_evaluate c e ⟨c, history⟩ ⟨rfl, h⟩
  exact ⟨outcome, t, run.exists⟩

/-- A lambda applied to itself, over the binding constructs and an aggregate. -/
theorem answers_of_not_weighs_selfApplied :
    let r := ((Registry.empty.insert "LET" .letForm).insert "LAMBDA" .lambdaForm).insert "SUM"
      (.reducer .sum)
    let w : Value := .lambda ["x"] (.invoke (.variable "x") [.variable "x"])
    let c : Context := .root { vars := [("w", w)], registry := r }
    (c.registry.All fun f => ¬ f.Weighs) ∧
      ∃ outcome t, (Expr.invoke (.variable "w") [.variable "w"]).Answers ⟨c, []⟩ outcome t := by
  intro r w c
  have plain : c.registry.All fun f => ¬ f.Weighs :=
    ((Registry.all_empty.insert id _).insert id _).insert id _
  exact ⟨plain, answers_of_not_weighs plain _ []⟩

end Expr

end Formula
