import Formula.Proofs.Evaluation.Simulation

/-!
# Depth

An evaluation is followed to a given depth. More depth changes nothing once an evaluation is not
exhausted, so it has at most one answer, and it has that from some depth on.
-/

namespace Formula

open Evaluation Filter

/-! ### Evaluations that agree but for some failures -/

/-- Every run of the first evaluation that does not end in an excused failure is a run of the
second. -/
def Evaluation.Agrees (excused : Failure → Prop) {α : Type} (work other : Evaluation α) : Prop :=
  ∀ s, (∃ failure, excused failure ∧ (work.runFrom s).1 = .error failure) ∨
    other.runFrom s = work.runFrom s

/-- Two evaluators agree on every expression. -/
def Evaluator.Agrees (excused : Failure → Prop) (evaluate other : Evaluator) : Prop :=
  ∀ e, Evaluation.Agrees excused (evaluate e) (other e)

/-- A state follows itself. -/
def Simulation.equality (excused : Failure → Prop) : Simulation Unit where
  toStock := .all
  Relates _ s t := s = t
  excused := excused
  spared _ := False
  Opens _ _ _ := True
  Knows _ := True
  capabilities := by
    rintro _ s _ rfl
    exact .refl _
  push := by
    rintro _ s _ bindings rfl _
    refine .inr (.inr ?_)
    cases s.context.push bindings with
    | error fault => exact .inl ⟨fault, rfl, rfl⟩
    | ok c => exact .inr ⟨c, c, (), rfl, rfl, trivial, rfl⟩
  leave := by
    rintro _ _ s _ bindings _ rfl
    rfl
  execute := by
    rintro _ s _ f values rfl _
    rfl
  record := by
    rintro _ s _ x rfl
    rfl
  executed _ _ _ := trivial
  known _ _ := trivial
  keeps _ := Stock.function_all _
  convert _ _ _ := trivial
  parse _ _ _ := trivial

lemma Evaluation.agrees_iff_follows {excused : Failure → Prop} {α : Type}
    {work other : Evaluation α} : Evaluation.Agrees excused work other ↔
      (Simulation.equality excused).Follows () (fun _ => work) (fun _ => other)
        (fun _ => True) := by
  rw [Simulation.follows_const_iff]
  constructor
  · rintro h s _ rfl
    refine (h s).imp_right fun eq => .inr ?_
    rw [eq]
    exact ⟨rfl, rfl, fun _ _ => trivial⟩
  · intro h s
    rcases h s s rfl with excused | ⟨_, ⟨⟩, _⟩ | ⟨same, left, _⟩
    · exact .inl excused
    · exact .inr (Prod.ext same left.symm)

/-- Agreement of both pieces is agreement of the one after the other. -/
lemma Evaluation.Agrees.bind {excused : Failure → Prop} {α β : Type} {work work' : Evaluation α}
    {next next' : α → Evaluation β} (first : Evaluation.Agrees excused work work')
    (second : ∀ a, Evaluation.Agrees excused (next a) (next' a)) :
    Evaluation.Agrees excused (work >>= next) (work' >>= next') :=
  agrees_iff_follows.2 <| Simulation.follows_bind (agrees_iff_follows.1 first) fun a _ =>
    agrees_iff_follows.1 (second a)

/-- Work agrees with itself. -/
lemma Evaluation.Agrees.rfl {excused : Failure → Prop} {α : Type} {work : Evaluation α} :
    Evaluation.Agrees excused work work :=
  fun _ => .inr (Eq.refl _)

section

variable {excused : Failure → Prop} {evaluate other weigh weigh' : Evaluator}

/-- Rules that are given evaluations that agree come to evaluations that agree. -/
theorem Evaluator.Agrees.stepWeighing {lookup lookup' : String → Evaluation Value}
    (names : ∀ name, Evaluation.Agrees excused (lookup name) (lookup' name))
    (h : evaluate.Agrees excused other) (criteria : weigh.Agrees excused weigh') (e : Expr) :
    Evaluation.Agrees excused (e.stepWeighing lookup evaluate weigh)
      (e.stepWeighing lookup' other weigh') := by
  refine Evaluation.agrees_iff_follows.2 (Simulation.follows_stepWeighing trivial ?_ ?_ ?_)
  · exact fun name _ => Evaluation.agrees_iff_follows.1 (names name)
  · exact fun _ e _ => Evaluation.agrees_iff_follows.1 (h e)
  · exact fun _ e _ => Evaluation.agrees_iff_follows.1 (criteria e)

lemma Evaluator.Agrees.step {lookup lookup' : String → Evaluation Value}
    (names : ∀ name, Evaluation.Agrees excused (lookup name) (lookup' name))
    (h : evaluate.Agrees excused other) (e : Expr) :
    Evaluation.Agrees excused (e.step lookup evaluate) (e.step lookup' other) := by
  simpa only [Expr.stepWeighing_self] using h.stepWeighing names h e

/-- Functions that are given evaluations that agree come to evaluations that agree. -/
lemma Evaluator.Agrees.apply (h : evaluate.Agrees excused other) (f : Function)
    (arguments : List Expr) :
    Evaluation.Agrees excused (f.apply evaluate arguments) (f.apply other arguments) := by
  refine Evaluation.agrees_iff_follows.2 (Simulation.follows_apply trivial (fun _ _ => trivial) ?_)
  exact fun _ e _ => Evaluation.agrees_iff_follows.1 (h e)

lemma Evaluation.agrees_find {read other : Reading} (name : String)
    (h : ∀ b below history,
      (∃ failure, excused failure ∧ (read b below history).1 = .error failure) ∨
      other b below history = read b below history) :
    Evaluation.Agrees excused (find read name) (find other name) := by
  rintro ⟨c, history⟩
  change (∃ failure, excused failure ∧ (c.find read name history).1 = .error failure) ∨
    c.find other name history = c.find read name history
  induction c with
  | bare => exact .inr rfl
  | root r => exact .inr rfl
  | layer l below ih => exact ih.imp_right fun eq => by simp only [Context.find, eq]
  | scope parent ih => exact ih.imp_right fun eq => by simp only [Context.find, eq]
  | binding b below ih =>
    simp only [Context.find]
    split
    · exact h b below history
    · exact ih.imp_right fun eq => by simp only [eq]

/-- Reading a binding agrees when evaluation does. -/
lemma Evaluator.Agrees.readWith (h : evaluate.Agrees excused other)
    (after : Binding → Context → Except Failure Value → Binding) (b : Binding) (below : Context)
    (history : List Execution) :
    (∃ failure, excused failure ∧ (b.readWith after evaluate below history).1 = .error failure) ∨
    b.readWith after other below history = b.readWith after evaluate below history := by
  cases content : b.content with
  | ready v => exact .inr (by simp only [Binding.readWith, content])
  | deferred e memo =>
    cases memo with
    | some v => exact .inr (by simp only [Binding.readWith, content])
    | none =>
      simp only [Binding.readWith, content]
      exact (h e ⟨below, history⟩).imp_right fun eq => by rw [eq]

lemma Evaluator.Agrees.lookup (h : evaluate.Agrees excused other) (name : String) :
    Evaluation.Agrees excused (Evaluation.lookup evaluate name) (Evaluation.lookup other name) := by
  simp only [Evaluation.lookup_eq_find, Binding.read_eq_readWith]
  exact agrees_find name (h.readWith Binding.settle)

end

/-! ### Evaluators by depth -/

/-- The value of an expression when bindings are read in a given way, to a given depth. -/
def Expr.evaluateBy (reading : Evaluator → Reading) : (depth : ℕ) → Evaluator
  | 0, _ => throw .exhausted
  | depth + 1, e =>
    e.step (find (reading (evaluateBy reading depth))) (evaluateBy reading depth)

/-- The evaluator reads bindings as look-ups do. -/
lemma Expr.evaluate_eq_evaluateBy : Expr.evaluate = Expr.evaluateBy Binding.read := by
  funext depth
  induction depth with
  | zero => rfl
  | succ depth ih =>
    funext e
    simp only [evaluate, evaluateBy, ih]
    congr 1
    funext name
    exact Evaluation.lookup_eq_find _ name

/-- That a family of evaluators, by depth, comes to an outcome and leaves a state behind. -/
def Expr.AnswersBy (evaluate : ℕ → Evaluator) (e : Expr) (s : State)
    (outcome : Except Fault Value) (t : State) : Prop :=
  ∃ depth, (evaluate depth e).runFrom s = (outcome.mapError .fault, t)

/-- That the evaluation of an expression ends, with an outcome, and leaves a state behind. -/
def Expr.Answers (e : Expr) (s : State) (outcome : Except Fault Value) (t : State) : Prop :=
  e.AnswersBy evaluate s outcome t

/-- An expression answers what the rule for its form comes to, at some depth. -/
lemma Expr.answers_iff_step {e : Expr} {s t : State} {outcome : Except Fault Value} :
    e.Answers s outcome t ↔ ∃ depth, (e.step (Evaluation.lookup (evaluate depth))
      (evaluate depth)).runFrom s = (outcome.mapError .fault, t) := by
  constructor
  · rintro ⟨depth, run⟩
    cases depth with
    | zero => cases outcome <;> cases run
    | succ depth => exact ⟨depth, run⟩
  · rintro ⟨depth, run⟩
    exact ⟨depth + 1, run⟩

/-- A call by name is left to the function under that name. -/
lemma Expr.runFrom_call {lookup : String → Evaluation Value} {evaluate : Evaluator} {name : String}
    {f : Function} {s : State} (known : s.context.function? name = .ok (some f))
    (arguments : List Expr) :
    ((Expr.call name arguments).step lookup evaluate).runFrom s =
      (f.apply evaluate arguments).runFrom s := by
  simp only [step, runFrom_bind, runFrom_context, runFrom_ofExcept, known, Except.mapError]

/-- More depth changes nothing that is not exhausted. -/
def Deepens (evaluate : ℕ → Evaluator) : Prop :=
  ∀ depth, (evaluate depth).Agrees (· = .exhausted) (evaluate (depth + 1))

lemma mapError_fault_ne_exhausted {α : Type} (outcome : Except Fault α) :
    outcome.mapError Failure.fault ≠ .error .exhausted := by
  cases outcome <;> simp [Except.mapError]

lemma exhausted_or_exists_mapError {α : Type} (x : Except Failure α) :
    x = .error .exhausted ∨ ∃ outcome : Except Fault α, x = outcome.mapError .fault := by
  match x with
  | .ok a => exact .inr ⟨.ok a, rfl⟩
  | .error (.fault fault) => exact .inr ⟨.error fault, rfl⟩
  | .error .exhausted => exact .inl rfl

lemma mapError_fault_injective {α : Type} {x y : Except Fault α}
    (h : x.mapError Failure.fault = y.mapError .fault) : x = y := by
  cases x <;> cases y <;> simp_all [Except.mapError]

namespace Evaluation

variable {α β : Type} {work : ℕ → Evaluation α} {next : ℕ → α → Evaluation β} {s t : State}

/-- That a family of evaluations, by depth, comes to an outcome and leaves a state behind. -/
def Reaches (work : ℕ → Evaluation α) (s : State) (outcome : Except Fault α) (t : State) : Prop :=
  ∃ depth, (work depth).runFrom s = (outcome.mapError .fault, t)

/-- One piece of work after the other answers when the first one does and the second one does from
there. -/
lemma exists_of_runFrom_bind {work : Evaluation α} {next : α → Evaluation β} {b : β}
    (run : (work >>= next).runFrom s = (.ok b, t)) :
    ∃ a m, work.runFrom s = (.ok a, m) ∧ (next a).runFrom m = (.ok b, t) := by
  rcases ran : work.runFrom s with ⟨failure | a, m⟩
  · rw [runFrom_bind_of_error (congrArg Prod.fst ran)] at run
    cases run
  · rw [runFrom_bind_of_ok ran] at run
    exact ⟨a, m, rfl, run⟩

/-- More depth changes nothing about a piece of work that is not exhausted. -/
def IsDeepening (work : ℕ → Evaluation α) : Prop :=
  ∀ depth, Evaluation.Agrees (· = .exhausted) (work depth) (work (depth + 1))

/-- A run that ends is a run of whatever agrees. -/
lemma Agrees.runFrom_eq {work other : Evaluation α} {outcome : Except Fault α}
    (h : Agrees (· = .exhausted) work other) (run : work.runFrom s = (outcome.mapError .fault, t)) :
    other.runFrom s = (outcome.mapError .fault, t) := by
  rcases h s with ⟨_, rfl, exhausted⟩ | eq
  · rw [run] at exhausted
    exact absurd exhausted (mapError_fault_ne_exhausted outcome)
  · exact eq.trans run

/-- An outcome at some depth is the outcome from there on. -/
lemma IsDeepening.eventually {outcome : Except Fault α} (deepens : IsDeepening work)
    (reaches : Reaches work s outcome t) :
    ∀ᶠ n in atTop, (work n).runFrom s = (outcome.mapError .fault, t) := by
  obtain ⟨depth, run⟩ := reaches
  filter_upwards [eventually_ge_atTop depth] with more le
  induction more, le using Nat.le_induction with
  | base => exact run
  | succ more _ ih => exact (deepens more).runFrom_eq ih

/-- Work comes to one outcome at most. -/
lemma IsDeepening.unique {x y : Except Fault α} {u : State} (deepens : IsDeepening work)
    (hx : Reaches work s x t) (hy : Reaches work s y u) : x = y ∧ t = u := by
  obtain ⟨depth, ex, ey⟩ := ((deepens.eventually hx).and (deepens.eventually hy)).exists
  rw [ex, Prod.mk.injEq] at ey
  exact ⟨mapError_fault_injective ey.1, ey.2⟩

/-- What the first of two pieces of work comes to is where the second one goes on. -/
lemma Reaches.bind {outcome : Except Fault β} {a : α} {m : State} (first : IsDeepening work)
    (second : IsDeepening fun n => next n a) (reaches : Reaches work s (.ok a) m)
    (goesOn : Reaches (fun n => next n a) m outcome t) :
    Reaches (fun n => work n >>= next n) s outcome t := by
  obtain ⟨depth, ran, run⟩ :=
    ((first.eventually reaches).and (second.eventually goesOn)).exists
  exact ⟨depth, by rw [runFrom_bind_of_ok ran, run]⟩

/-- Work whose run is the same at every depth comes to what that run comes to. -/
lemma reaches_iff_of_runs {run : Except Failure α × State} {outcome : Except Fault α}
    (runs : ∀ n, (work n).runFrom s = run) :
    Reaches work s outcome t ↔ run = (outcome.mapError .fault, t) := by
  simp [Reaches, runs]

/-- One piece of work after the other comes to a fault of the first one or to what the second one
comes to from there. -/
lemma reaches_bind_iff {outcome : Except Fault β} (first : IsDeepening work)
    (second : ∀ a, IsDeepening fun n => next n a) :
    Reaches (fun n => work n >>= next n) s outcome t ↔
      (∃ fault, outcome = .error fault ∧ Reaches work s (.error fault) t) ∨
      ∃ a m, Reaches work s (.ok a) m ∧ Reaches (fun n => next n a) m outcome t := by
  constructor
  · rintro ⟨depth, run⟩
    cases ran : (work depth).runFrom s with
    | mk result m =>
    cases result with
    | error failure =>
      rw [runFrom_bind_of_error (congrArg Prod.fst ran), ran] at run
      obtain ⟨failed, rfl⟩ := Prod.mk.inj run
      cases outcome with
      | ok b => cases failed
      | error fault =>
        cases failed
        exact .inl ⟨fault, rfl, depth, ran⟩
    | ok a =>
      rw [runFrom_bind_of_ok ran] at run
      exact .inr ⟨a, m, ⟨depth, ran⟩, depth, run⟩
  · rintro (⟨fault, rfl, depth, run⟩ | ⟨a, m, ran, run⟩)
    · exact ⟨depth, by rw [runFrom_bind_of_error (congrArg Prod.fst run), run]; rfl⟩
    · exact ran.bind first (second a) run

/-- Once the first of two pieces of work has answered, both come to what the second one comes to. -/
lemma Reaches.bind_iff {outcome : Except Fault β} {a : α} {m : State} (first : IsDeepening work)
    (second : ∀ a, IsDeepening fun n => next n a) (reaches : Reaches work s (.ok a) m) :
    Reaches (fun n => work n >>= next n) s outcome t ↔
      Reaches (fun n => next n a) m outcome t := by
  refine ⟨fun both => ?_, reaches.bind first (second a)⟩
  rcases (reaches_bind_iff first second).1 both with ⟨fault, -, failed⟩ | ⟨b, u, ran, goesOn⟩
  · cases (first.unique reaches failed).1
  · obtain ⟨same, rfl⟩ := first.unique reaches ran
    cases same
    exact goesOn

/-- What is made of an answer afterwards. -/
lemma reaches_map_iff {f : α → β} {outcome : Except Fault β} :
    Reaches (fun n => work n >>= fun a => pure (f a)) s outcome t ↔
      ∃ result, Reaches work s result t ∧ outcome = result.map f := by
  have run_eq (n : ℕ) : (work n >>= fun a => pure (f a)).runFrom s =
      (((work n).runFrom s).1.map f, ((work n).runFrom s).2) := by
    rw [runFrom_bind]
    rcases (work n).runFrom s with ⟨_ | _, _⟩ <;> rfl
  simp only [Reaches, run_eq]
  constructor
  · rintro ⟨depth, run⟩
    rcases ran : (work depth).runFrom s with ⟨failure | a, m⟩ <;> rw [ran] at run <;>
      obtain ⟨result, rfl⟩ := Prod.mk.inj run <;> cases outcome <;> cases result
    · next fault => exact ⟨.error fault, ⟨depth, ran⟩, rfl⟩
    · exact ⟨.ok a, ⟨depth, ran⟩, rfl⟩
  · rintro ⟨result, ⟨depth, run⟩, rfl⟩
    refine ⟨depth, ?_⟩
    rw [run]
    cases result <;> rfl

end Evaluation

/-- A call by name answers what the function under that name comes to. -/
lemma Expr.answers_call_iff {name : String} {f : Function} {s t : State}
    {outcome : Except Fault Value} (known : s.context.function? name = .ok (some f))
    (arguments : List Expr) :
    (Expr.call name arguments).Answers s outcome t ↔
      Reaches (fun n => f.apply (evaluate n) arguments) s outcome t := by
  simp only [answers_iff_step, runFrom_call known, Reaches]

namespace Deepens

variable {evaluate : ℕ → Evaluator} (h : Deepens evaluate) {e : Expr} {s : State}
include h

/-- An answer that is there at all is there from some depth on. -/
lemma eventually_of_answersBy {outcome : Except Fault Value} {t : State}
    (answers : e.AnswersBy evaluate s outcome t) :
    ∀ᶠ depth in atTop, (evaluate depth e).runFrom s = (outcome.mapError .fault, t) :=
  IsDeepening.eventually (fun depth => h depth e) answers

/-- An expression has at most one answer. -/
lemma answersBy_unique {x y : Except Fault Value} {t u : State}
    (hx : e.AnswersBy evaluate s x t) (hy : e.AnswersBy evaluate s y u) : x = y ∧ t = u :=
  IsDeepening.unique (fun depth => h depth e) hx hy

end Deepens

/-- An evaluation that is not exhausted answers. -/
lemma Expr.answersBy_of_ne_exhausted {evaluate : ℕ → Evaluator} {e : Expr} {s : State} {depth : ℕ}
    (ends : ((evaluate depth e).runFrom s).1 ≠ .error .exhausted) :
    ∃ outcome, ((evaluate depth e).runFrom s).1 = outcome.mapError .fault ∧
      e.AnswersBy evaluate s outcome ((evaluate depth e).runFrom s).2 := by
  obtain ⟨outcome, run⟩ := (exhausted_or_exists_mapError _).resolve_left ends
  exact ⟨outcome, run, depth, Prod.ext run rfl⟩

/-- That a family of evaluators comes to the values that another one comes to, unless it is
excused. -/
structure Approaches (limit : ℕ → Evaluator) (excused : Failure → Prop)
    (evaluate : ℕ → Evaluator) : Prop where
  sound : ∀ {e : Expr} {s t : State} {v : Value},
    (∀ᶠ n in atTop, (evaluate n e).runFrom s = (.ok v, t)) → e.AnswersBy limit s (.ok v) t
  complete : ∀ {e : Expr} {s t : State} {v : Value}, e.AnswersBy limit s (.ok v) t →
    (∃ failure, excused failure ∧ ∀ᶠ n in atTop, ((evaluate n e).runFrom s).1 = .error failure) ∨
    ∀ᶠ n in atTop, (evaluate n e).runFrom s = (.ok v, t)

namespace Deepens

variable {limit : ℕ → Evaluator} (h : Deepens limit)
include h

lemma approaches_self : Approaches limit (fun _ => False) limit where
  sound eventually := eventually.exists
  complete answers := .inr (h.eventually_of_answersBy answers)

/-- To a fixed depth the same values are reached, or the depth does not suffice. -/
lemma approaches_depth (depth : ℕ) : Approaches limit (· = .exhausted) (fun _ => limit depth) where
  sound eventually := ⟨depth, eventually_const.1 eventually⟩
  complete := by
    intro e s t v answers
    by_cases exhausted : ((limit depth e).runFrom s).1 = .error .exhausted
    · exact .inl ⟨_, rfl, .of_forall fun _ => exhausted⟩
    · obtain ⟨outcome, eq, ends⟩ := Expr.answersBy_of_ne_exhausted exhausted
      obtain ⟨rfl, same⟩ := h.answersBy_unique ends answers
      exact .inr (.of_forall fun _ => Prod.ext eq same)

end Deepens

/-- More depth changes nothing when that is so of reading a single binding. -/
theorem Expr.deepens_evaluateBy {reading : Evaluator → Reading}
    (reads : ∀ evaluate other : Evaluator, evaluate.Agrees (· = .exhausted) other →
      ∀ b below history,
        (∃ failure, failure = .exhausted ∧ (reading evaluate b below history).1 = .error failure) ∨
        reading other b below history = reading evaluate b below history) :
    Deepens (evaluateBy reading) := by
  intro depth
  induction depth with
  | zero => exact fun e s => .inl ⟨_, rfl, rfl⟩
  | succ depth ih => exact fun e => ih.step (fun name => agrees_find name (reads _ _ ih)) e

/-- More depth does not change what evaluation answers. -/
theorem Expr.deepens_evaluate : Deepens Expr.evaluate := by
  rw [evaluate_eq_evaluateBy, Binding.read_eq_readWith]
  exact deepens_evaluateBy fun _ _ h => h.readWith Binding.settle

/-- What an expression answers, and what it executes and keeps, is determined by the state. -/
theorem Expr.Answers.unique {e : Expr} {s t u : State} {x y : Except Fault Value}
    (hx : e.Answers s x t) (hy : e.Answers s y u) : x = y ∧ t = u :=
  deepens_evaluate.answersBy_unique hx hy

/-! ### Answers that correspond -/

namespace Simulation

variable {W : Type} {S : Simulation W}

/-- Expressions correspond when finding names does, to whatever depth the left side is followed,
provided that expressions do so to that depth. -/
theorem tracks_evaluateBy (reading reading' : Evaluator → Reading)
    (exhausted : S.excused .exhausted)
    (names : ∀ depth,
      S.Tracks (fun _ => Expr.evaluateBy reading depth) (Expr.evaluateBy reading') →
      ∀ w name, S.Follows w (fun _ => find (reading (Expr.evaluateBy reading depth)) name)
        (fun n => find (reading' (Expr.evaluateBy reading' n)) name) S.value)
    (depth : ℕ) : S.Tracks (fun _ => Expr.evaluateBy reading depth) (Expr.evaluateBy reading') := by
  induction depth with
  | zero => exact fun w e _ s t _ => .inl ⟨_, exhausted, .of_forall fun _ => rfl⟩
  | succ depth ih =>
    intro w e he
    apply Follows.of_succ
    exact follows_step he (fun name _ => names depth ih w name) ih

/-- What corresponds to an evaluator at every depth answers what that one does, unless one side
is excused. -/
lemma Tracks.answersBy {evaluate other : ℕ → Evaluator} {w : W} {e : Expr} {s s' t : State}
    {outcome : Except Fault Value} (h : ∀ depth, S.Tracks (fun _ => evaluate depth) other)
    (he : S.expr e) (related : S.Relates w s t) (answers : e.AnswersBy evaluate s outcome s') :
    (∃ failure, S.excused failure ∧ outcome.mapError .fault = .error failure) ∨
    (∃ failure, S.spared failure ∧
      ∀ᶠ n in atTop, ((other n e).runFrom t).1 = .error failure) ∨
    ∃ t', S.Relates w s' t' ∧ e.AnswersBy other t outcome t' := by
  obtain ⟨depth, run⟩ := answers
  have met := h depth w e he s t related
  simp only [run] at met
  rcases met with ⟨failure, excused, hl⟩ | spared | ⟨_, _, t', related', _, hl, hr⟩
  · exact .inl ⟨failure, excused, eventually_const.1 hl⟩
  · exact .inr (.inl spared)
  · obtain ⟨rfl, rfl⟩ := Prod.mk.inj (eventually_const.1 hl)
    exact .inr (.inr ⟨t', related', hr.exists⟩)

end Simulation

end Formula
