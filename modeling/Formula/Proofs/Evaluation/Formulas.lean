import Formula.Proofs.Evaluation.Depth
import Formula.Session

/-!
# Formulas that come to an outcome

What a formula text comes to over a root does not depend on the depth it is followed to: from some
depth on the evaluation has its outcome, and to less depth it is exhausted. A formula that comes to
nothing is exhausted at every depth.
-/

namespace Formula

/-- That a formula text comes to an outcome over a root. -/
def Root.Evaluates (root : Root) (formula : String) (outcome : Except Fault Value) : Prop :=
  ∃ depth, root.evaluate formula depth = outcome.mapError .fault

namespace Root

variable {root : Root} {formula : String} {outcome other : Except Fault Value} {depth more : ℕ}

/-- One more level changes nothing unless the levels did not suffice. -/
lemma evaluate_succ (root : Root) (formula : String) (depth : ℕ) :
    root.evaluate formula depth = .error .exhausted ∨
      root.evaluate formula (depth + 1) = root.evaluate formula depth := by
  cases sound : root.config.validate with
  | error fault => exact .inr (by simp only [evaluate, sound]; rfl)
  | ok =>
    have run (depth : ℕ) : root.evaluate formula depth = (root.run [] formula depth).1 := by
      simp only [evaluate, sound]
      rfl
    simp only [run, Root.run]
    cases Expr.parse formula with
    | error fault => exact .inr rfl
    | ok e =>
      rcases Expr.deepens_evaluate depth e ⟨.root root, []⟩ with ⟨_, rfl, exhausted⟩ | same
      · exact .inl exhausted
      · exact .inr (by simp only [same])

lemma evaluate_of_le (ends : root.evaluate formula depth = outcome.mapError .fault)
    (le : depth ≤ more) : root.evaluate formula more = outcome.mapError .fault := by
  induction more, le using Nat.le_induction with
  | base => exact ends
  | succ more _ ih =>
    rcases evaluate_succ root formula more with exhausted | same
    · exact absurd (ih.symm.trans exhausted) (mapError_fault_ne_exhausted outcome)
    · exact same.trans ih

/-- A formula comes to one outcome at most. -/
theorem Evaluates.unique (h : root.Evaluates formula outcome) (h' : root.Evaluates formula other) :
    outcome = other := by
  obtain ⟨depth, ends⟩ := h
  obtain ⟨depth', ends'⟩ := h'
  have here := evaluate_of_le ends (depth.le_max_left depth')
  have here' := evaluate_of_le ends' (depth.le_max_right depth')
  exact mapError_fault_injective (here.symm.trans here')

/-- A formula is exhausted at every depth that is less than it needs. -/
theorem Evaluates.exists_enough (h : root.Evaluates formula outcome) :
    ∃ enough, ∀ depth, root.evaluate formula depth =
      if enough ≤ depth then outcome.mapError .fault else .error .exhausted := by
  classical
  refine ⟨Nat.find h, fun depth => ?_⟩
  split
  · next le => exact evaluate_of_le (Nat.find_spec h) le
  · next less =>
    refine (exhausted_or_exists_mapError _).resolve_right ?_
    rintro ⟨other, ends⟩
    obtain rfl := Evaluates.unique h ⟨depth, ends⟩
    exact less (Nat.find_min' h ends)

lemma evaluate_of_not_evaluates (endless : ∀ outcome, ¬ root.Evaluates formula outcome)
    (depth : ℕ) : root.evaluate formula depth = .error .exhausted := by
  refine (exhausted_or_exists_mapError _).resolve_right ?_
  rintro ⟨outcome, ends⟩
  exact endless outcome ⟨depth, ends⟩

end Root

end Formula
