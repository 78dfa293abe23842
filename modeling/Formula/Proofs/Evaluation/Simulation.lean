import Formula.Proofs.Context.Views
import Formula.Proofs.Evaluation.Logic
import Mathlib.Order.Filter.AtTopBot.Basic

/-!
# Simulations

Two evaluations correspond when, from related states, they come to the same outcome and to related
states again. How much depth each of them needs may differ, so both are families, and correspond
from some depth on. Either side may fail in a way that excuses the other one.

`Simulation` lists what has to be shown of a relation between states. `Simulation.logic` turns it
into a logic, so that whatever the language is asked to evaluate in related states corresponds.
-/

namespace Formula

open Evaluation Filter

/-- What holds from some depth on holds so with a depth added in front. -/
lemma eventually_of_succ {P : ℕ → Prop} (h : ∀ᶠ n in atTop, P (n + 1)) : ∀ᶠ n in atTop, P n := by
  rw [← map_add_atTop_eq_nat 1]
  exact h

/-- A relation between states that evaluation does not lead out of. -/
structure Simulation (W : Type) extends Stock where
  /-- The states that are related in a world. -/
  Relates : W → State → State → Prop
  /-- The failures of the left side that excuse the right one. -/
  excused : Failure → Prop
  /-- The failures of the right side that excuse the left one. -/
  spared : Failure → Prop
  /-- The worlds that opening a scope with bindings leads to. -/
  Opens : W → List Binding → W → Prop
  /-- The functions that may be met. -/
  Knows : Function → Prop
  capabilities : ∀ {w : W} {s t : State}, Relates w s t → s.context.SameCapabilities t.context
  push : ∀ {w : W} {s t : State} {bindings : List Binding}, Relates w s t →
    (∀ b ∈ bindings, toStock.binding b) →
    (∃ fault, excused (.fault fault) ∧ s.context.push bindings = .error fault) ∨
    (∃ fault, spared (.fault fault) ∧ t.context.push bindings = .error fault) ∨
    (∃ fault, s.context.push bindings = .error fault ∧ t.context.push bindings = .error fault) ∨
    ∃ c d w', s.context.push bindings = .ok c ∧ t.context.push bindings = .ok d ∧
      Opens w bindings w' ∧ Relates w' ⟨c, s.history⟩ ⟨d, t.history⟩
  leave : ∀ {w w' : W} {s t : State} {bindings : List Binding}, Opens w bindings w' →
    Relates w' s t → Relates w (s.within .leave) (t.within .leave)
  execute : ∀ {w : W} {s t : State} {f : HostFunction} (values : List Value), Relates w s t →
    Knows (.host f) → f.execute s.history values = f.execute t.history values
  record : ∀ {w : W} {s t : State} (x : Execution), Relates w s t →
    Relates w ⟨s.context, x :: s.history⟩ ⟨t.context, x :: t.history⟩
  executed : ∀ {f : HostFunction} {history : List Execution} {values : List Value} {v : Value},
    Knows (.host f) → (∀ x ∈ values, value x) → f.execute history values = .ok v → value v
  known : ∀ {w : W} {s t : State} {name : String} {f : Function}, Relates w s t →
    s.context.function? name = .ok (some f) → Knows f
  keeps : ∀ {f : Function}, Knows f → toStock.function f
  convert : ∀ {w : W} {s t : State} {v r : Value} {type : TypeName}, Relates w s t → value v →
    s.context.convert v type = .ok r → value r
  parse : ∀ {w : W} {s t : State} {r : RangeReducer} {text : String} {e : Expr},
    Knows (.rangeReducer r) → Relates w s t → s.context.parse text = .ok e → expr e

namespace Simulation

variable {W : Type} (S : Simulation W) {w : W}

/-- That two families of runs come, from some depth on, to the same outcome and to related states,
unless one side fails in a way that excuses the other one. -/
def Meets (w : W) {α : Type} (left right : ℕ → Except Failure α × State) (Q : α → Prop) : Prop :=
  (∃ failure, S.excused failure ∧ ∀ᶠ n in atTop, (left n).1 = .error failure) ∨
  (∃ failure, S.spared failure ∧ ∀ᶠ n in atTop, (right n).1 = .error failure) ∨
  ∃ outcome s t, S.Relates w s t ∧ (∀ a, outcome = .ok a → Q a) ∧
    (∀ᶠ n in atTop, left n = (outcome, s)) ∧ ∀ᶠ n in atTop, right n = (outcome, t)

/-- That two families of evaluations correspond, from all related states. -/
def Follows (w : W) {α : Type} (left right : ℕ → Evaluation α) (Q : α → Prop) : Prop :=
  ∀ s t, S.Relates w s t →
    S.Meets w (fun n => (left n).runFrom s) (fun n => (right n).runFrom t) Q

/-- Expressions correspond in every world. -/
def Tracks (left right : ℕ → Evaluator) : Prop :=
  ∀ w e, S.expr e → S.Follows w (fun n => left n e) (fun n => right n e) S.value

/-! ### Both ways -/

/-- The simulation with the sides exchanged. -/
def symm (S : Simulation W) : Simulation W where
  toStock := S.toStock
  Relates w s t := S.Relates w t s
  excused := S.spared
  spared := S.excused
  Opens := S.Opens
  Knows := S.Knows
  capabilities related := (S.capabilities related).symm
  push := by
    intro w s t bindings related fresh
    rcases S.push related fresh with excused | spared | ⟨fault, left, right⟩ |
      ⟨c, d, w', left, right, opens, inner⟩
    · exact .inr (.inl excused)
    · exact .inl spared
    · exact .inr (.inr (.inl ⟨fault, right, left⟩))
    · exact .inr (.inr (.inr ⟨d, c, w', right, left, opens, inner⟩))
  leave := S.leave
  execute values related known := (S.execute values related known).symm
  record := S.record
  executed := S.executed
  known {_ _ _ name _} related found :=
    S.known related (((S.capabilities related).function name).trans found)
  keeps := S.keeps
  convert related hv converted := by
    rw [← (S.capabilities related).convert] at converted
    exact S.convert related hv converted
  parse known related parsed := by
    rw [← (S.capabilities related).parse] at parsed
    exact S.parse known related parsed

variable {S}

lemma Meets.symm {α : Type} {left right : ℕ → Except Failure α × State} {Q : α → Prop}
    (h : S.Meets w left right Q) : S.symm.Meets w right left Q := by
  rcases h with excused | spared | ⟨outcome, s, t, related, good, left, right⟩
  · exact .inr (.inl excused)
  · exact .inl spared
  · exact .inr (.inr ⟨outcome, t, s, related, good, right, left⟩)

lemma Follows.symm {α : Type} {left right : ℕ → Evaluation α} {Q : α → Prop}
    (h : S.Follows w left right Q) : S.symm.Follows w right left Q :=
  fun s t related => (h t s related).symm

lemma Tracks.symm {left right : ℕ → Evaluator} (h : S.Tracks left right) :
    S.symm.Tracks right left :=
  fun w e he => (h w e he).symm

/-! ### Pieces of evaluations that correspond -/

variable {α β : Type} {left right : ℕ → Evaluation α} {Q : α → Prop}

/-- Runs that do not depend on the depth. -/
lemma meets_const {outcome : Except Failure α} {s t : State} (related : S.Relates w s t)
    (good : ∀ a, outcome = .ok a → Q a) :
    S.Meets w (fun _ => (outcome, s)) (fun _ => (outcome, t)) Q :=
  .inr (.inr ⟨outcome, s, t, related, good, .of_forall fun _ => rfl, .of_forall fun _ => rfl⟩)

/-- What is done to the contexts afterwards, by the outcome, may lead to another world. -/
lemma Meets.within {w' : W} {left right : ℕ → Except Failure α × State}
    {f g : Except Failure α → Context → Context} (h : S.Meets w left right Q)
    (related : ∀ outcome s t, (∀ᶠ n in atTop, left n = (outcome, s)) →
      (∀ᶠ n in atTop, right n = (outcome, t)) → S.Relates w s t →
      S.Relates w' (s.within (f outcome)) (t.within (g outcome))) :
    S.Meets w' (fun n => ((left n).1, (left n).2.within (f (left n).1)))
      (fun n => ((right n).1, (right n).2.within (g (right n).1))) Q := by
  rcases h with excused | spared | ⟨outcome, s, t, met, good, hl, hr⟩
  · exact .inl excused
  · exact .inr (.inl spared)
  · refine .inr (.inr ⟨outcome, _, _, related outcome s t hl hr met, good, ?_, ?_⟩)
    · filter_upwards [hl] with n hn
      rw [hn]
    · filter_upwards [hr] with n hn
      rw [hn]

/-- Bindings that hold the same are read alike if their expression is evaluated alike. -/
lemma meets_readWith {after after' : Binding → Context → Except Failure Value → Binding}
    {left right : ℕ → Evaluator} {b b' : Binding} {c d : Context}
    {history history' : List Execution} (same : b.content = b'.content)
    (held : S.Relates w ⟨.binding b c, history⟩ ⟨.binding b' d, history'⟩)
    (evaluated : ∀ e, b'.content = .deferred e none → S.Meets w
      (fun n => (((left n e).runFrom ⟨c, history⟩).1, ((left n e).runFrom ⟨c, history⟩).2.within
        (.binding (after b c ((left n e).runFrom ⟨c, history⟩).1))))
      (fun n => (((right n e).runFrom ⟨d, history'⟩).1, ((right n e).runFrom ⟨d, history'⟩).2.within
        (.binding (after' b' d ((right n e).runFrom ⟨d, history'⟩).1)))) fun _ => True) :
    S.Meets w (fun n => b.readWith after (left n) c history)
      (fun n => b'.readWith after' (right n) d history') fun _ => True := by
  cases content : b'.content with
  | ready v =>
    simp only [Binding.readWith, same, content]
    exact meets_const held fun _ _ => trivial
  | deferred e memo =>
    cases memo with
    | some v =>
      simp only [Binding.readWith, same, content]
      exact meets_const held fun _ _ => trivial
    | none =>
      simp only [Binding.readWith, same, content]
      exact evaluated e content

lemma follows_pure {a : α} (h : Q a) : S.Follows w (fun _ => pure a) (fun _ => pure a) Q := by
  intro s t related
  refine meets_const related ?_
  rintro b ⟨⟩
  exact h

lemma follows_fail {fault : Fault} : S.Follows w (fun _ => fail fault) (fun _ => fail fault) Q := by
  intro s t related
  refine meets_const related ?_
  rintro b ⟨⟩

lemma follows_bind {next other : ℕ → α → Evaluation β} {R : β → Prop}
    (first : S.Follows w left right Q)
    (second : ∀ a, Q a → S.Follows w (fun n => next n a) (fun n => other n a) R) :
    S.Follows w (fun n => left n >>= next n) (fun n => right n >>= other n) R := by
  intro s t related
  rcases first s t related with ⟨failure, excused, hl⟩ | ⟨failure, spared, hr⟩ |
    ⟨outcome, s', t', related', good, hl, hr⟩
  · exact .inl ⟨failure, excused, hl.mono fun n hn => by simp only [runFrom_bind_of_error hn]⟩
  · exact .inr (.inl ⟨failure, spared, hr.mono fun n hn => by
      simp only [runFrom_bind_of_error hn]⟩)
  cases outcome with
  | error failure =>
    refine .inr (.inr ⟨.error failure, s', t', related', fun b hb => by simp at hb, ?_, ?_⟩)
    · filter_upwards [hl] with n hn
      rw [runFrom_bind_of_error (congrArg Prod.fst hn), hn]
    · filter_upwards [hr] with n hn
      rw [runFrom_bind_of_error (congrArg Prod.fst hn), hn]
  | ok a =>
    rcases second a (good a rfl) s' t' related' with ⟨failure, excused, hl'⟩ |
      ⟨failure, spared, hr'⟩ | ⟨outcome, s'', t'', related'', good', hl', hr'⟩
    · refine .inl ⟨failure, excused, ?_⟩
      filter_upwards [hl, hl'] with n hn hn'
      rwa [runFrom_bind_of_ok hn]
    · refine .inr (.inl ⟨failure, spared, ?_⟩)
      filter_upwards [hr, hr'] with n hn hn'
      rwa [runFrom_bind_of_ok hn]
    · refine .inr (.inr ⟨outcome, s'', t'', related'', good', ?_, ?_⟩)
      · filter_upwards [hl, hl'] with n hn hn'
        rwa [runFrom_bind_of_ok hn]
      · filter_upwards [hr, hr'] with n hn hn'
        rwa [runFrom_bind_of_ok hn]

lemma follows_ask {f : Context → Except Fault α}
    (same : ∀ c d : Context, c.SameCapabilities d → f c = f d)
    (answer : ∀ c a, (∃ s t, S.Relates w s t ∧ s.context = c) → f c = .ok a → Q a) :
    S.Follows w (fun _ => context >>= fun c => ofExcept (f c))
      (fun _ => context >>= fun c => ofExcept (f c)) Q := by
  intro s t related
  have eq : f t.context = f s.context := (same _ _ (S.capabilities related)).symm
  simp only [runFrom_bind, runFrom_context, runFrom_ofExcept, eq]
  refine meets_const related fun a ha => ?_
  exact answer s.context a ⟨s, t, related, rfl⟩ (eq_ok_of_mapError ha)

lemma follows_inScope {bindings : List Binding} (fresh : ∀ b ∈ bindings, S.binding b)
    (h : ∀ w', S.Opens w bindings w' → S.Follows w' left right Q) :
    S.Follows w (fun n => inScope bindings (left n)) (fun n => inScope bindings (right n)) Q := by
  intro s t related
  rcases S.push related fresh with ⟨fault, excused, hl⟩ | ⟨fault, spared, hr⟩ | ⟨fault, hl, hr⟩ |
    ⟨c, d, w', hl, hr, opens, inner⟩
  · exact .inl ⟨_, excused, .of_forall fun n => congrArg Prod.fst (runFrom_inScope_of_error hl)⟩
  · exact .inr (.inl ⟨_, spared, .of_forall fun n =>
      congrArg Prod.fst (runFrom_inScope_of_error hr)⟩)
  · simp only [runFrom_inScope_of_error hl, runFrom_inScope_of_error hr]
    refine meets_const related ?_
    rintro a ⟨⟩
  · simp only [runFrom_inScope_of_ok hl, runFrom_inScope_of_ok hr]
    exact (h w' opens _ _ inner).within (f := fun _ => .leave) (g := fun _ => .leave)
      fun _ _ _ _ _ inner => S.leave opens inner

lemma follows_execute {f : HostFunction} {values : List Value} (known : S.Knows (.host f))
    (hv : ∀ v ∈ values, S.value v) :
    S.Follows w (fun _ => Evaluation.execute f values) (fun _ => Evaluation.execute f values)
      S.value := by
  intro s t related
  simp only [runFrom_execute, ← S.execute values related known]
  refine meets_const (S.record _ related) fun a ha => ?_
  exact S.executed known hv (eq_ok_of_mapError ha)

/-- Evaluations that do not depend on the depth correspond when their runs do. -/
lemma follows_const_iff {work other : Evaluation α} :
    S.Follows w (fun _ => work) (fun _ => other) Q ↔ ∀ s t, S.Relates w s t →
      (∃ failure, S.excused failure ∧ (work.runFrom s).1 = .error failure) ∨
      (∃ failure, S.spared failure ∧ (other.runFrom t).1 = .error failure) ∨
      (other.runFrom t).1 = (work.runFrom s).1 ∧
        S.Relates w (work.runFrom s).2 (other.runFrom t).2 ∧
        ∀ a, (work.runFrom s).1 = .ok a → Q a := by
  refine forall₃_congr fun s t related => ?_
  constructor
  · rintro (⟨failure, excused, hl⟩ | ⟨failure, spared, hr⟩ | ⟨_, _, _, related', good, hl, hr⟩)
    · exact .inl ⟨failure, excused, eventually_const.1 hl⟩
    · exact .inr (.inl ⟨failure, spared, eventually_const.1 hr⟩)
    · rw [eventually_const.1 hl, eventually_const.1 hr]
      exact .inr (.inr ⟨rfl, related', good⟩)
  · rintro (⟨failure, excused, hl⟩ | ⟨failure, spared, hr⟩ | ⟨same, related', good⟩)
    · exact .inl ⟨failure, excused, .of_forall fun _ => hl⟩
    · exact .inr (.inl ⟨failure, spared, .of_forall fun _ => hr⟩)
    · exact .inr (.inr ⟨_, _, _, related', good, .of_forall fun _ => rfl,
        .of_forall fun _ => Prod.ext same rfl⟩)

/-! ### The logic of a simulation -/

/-- That evaluations correspond, as a logic: one half of a family against the other one. -/
def logic (S : Simulation W) : Logic (ℕ ⊕ ℕ) W where
  toStock := S.toStock
  Holds w _ work Q := S.Follows w (fun n => work (.inl n)) (fun n => work (.inr n)) Q
  Seen w c := ∃ s t, S.Relates w s t ∧ s.context = c
  Opens := S.Opens
  Knows := S.Knows
  weighed := S.expr
  pure := follows_pure
  fail := follows_fail
  bind := follows_bind
  ask := follows_ask
  inScope := follows_inScope
  execute known _ := follows_execute known
  known := by
    rintro w _ name arguments f ⟨s, t, related, rfl⟩ _
    exact S.known related
  keeps := S.keeps
  convert := by
    rintro w _ v r type ⟨s, t, related, rfl⟩
    exact S.convert related
  parse := by
    rintro w _ r text e known ⟨s, t, related, rfl⟩
    exact S.parse known related

/-- What the language makes of names and expressions that correspond does so, too. -/
theorem follows_stepWeighing {lookup lookup' : ℕ → String → Evaluation Value}
    {evaluate evaluate' weigh weigh' : ℕ → Evaluator} {e : Expr} (he : S.expr e)
    (names : ∀ name, e = .variable name →
      S.Follows w (fun n => lookup n name) (fun n => lookup' n name) S.value)
    (expressions : S.Tracks evaluate evaluate') (criteria : S.Tracks weigh weigh') :
    S.Follows w (fun n => e.stepWeighing (lookup n) (evaluate n) (weigh n))
      (fun n => e.stepWeighing (lookup' n) (evaluate' n) (weigh' n)) S.value := by
  change S.logic.Holds w (fun i => e.stepWeighing (i.elim lookup lookup')
    (i.elim evaluate evaluate') (i.elim weigh weigh')) S.value
  refine S.logic.stepWeighing he names ?_ ?_ ?_
  · exact fun p _ hp => expressions w p hp
  · exact fun _ w' _ _ p hp => expressions w' p hp
  · exact fun _ _ p hp => criteria w p hp

theorem follows_step {lookup lookup' : ℕ → String → Evaluation Value}
    {evaluate evaluate' : ℕ → Evaluator} {e : Expr} (he : S.expr e)
    (names : ∀ name, e = .variable name →
      S.Follows w (fun n => lookup n name) (fun n => lookup' n name) S.value)
    (expressions : S.Tracks evaluate evaluate') :
    S.Follows w (fun n => e.step (lookup n) (evaluate n))
      (fun n => e.step (lookup' n) (evaluate' n)) S.value := by
  simpa only [Expr.stepWeighing_self] using follows_stepWeighing he names expressions expressions

/-- Functions that are given expressions that correspond come to evaluations that do. -/
theorem follows_apply {evaluate evaluate' : ℕ → Evaluator} {f : Function} {es : List Expr}
    (known : S.Knows f) (he : ∀ e ∈ es, S.expr e) (expressions : S.Tracks evaluate evaluate') :
    S.Follows w (fun n => f.apply (evaluate n) es) (fun n => f.apply (evaluate' n) es) S.value := by
  simp only [← Function.applyWeighing_self]
  change S.logic.Holds w (fun i => f.applyWeighing (i.elim evaluate evaluate')
    (i.elim evaluate evaluate') es) S.value
  refine S.logic.apply known he ?_ ?_ ?_ ?_
  · exact fun e mem => expressions w e (he e mem)
  · exact fun e mem => expressions w e.argument (Stock.argument (he e mem))
  · exact fun _ w' _ _ e he => expressions w' e he
  · exact fun _ _ e he => expressions w e he

/-- Depth that is added in front does not matter in the end. -/
lemma Follows.of_succ (h : S.Follows w left (fun n => right (n + 1)) Q) :
    S.Follows w left right Q := by
  intro s t related
  rcases h s t related with excused | ⟨failure, spared, hr⟩ |
    ⟨outcome, s', t', related', good, hl, hr⟩
  · exact .inl excused
  · exact .inr (.inl ⟨failure, spared, eventually_of_succ hr⟩)
  · exact .inr (.inr ⟨outcome, s', t', related', good, hl, eventually_of_succ hr⟩)

end Simulation

end Formula
