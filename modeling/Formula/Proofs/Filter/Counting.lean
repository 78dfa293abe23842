import Formula.Proofs.Aggregate.Leaves
import Formula.Proofs.Filter.Selection

/-!
# What is counted of what is accepted

`COUNTIF` hands what its criterion accepts to `COUNTA`, which passes null over and goes into arrays.
It therefore counts the leaves besides null of what is accepted. A candidate that is neither null
nor an array is one such leaf, so among such candidates the accepted ones are counted; an accepted
null counts for nothing, and an accepted array for as much as there is in it.
-/

namespace Formula

open Evaluation

/-- `COUNTIF(range, criteria)`. -/
def RangeReducer.countif : RangeReducer :=
  { name := "COUNTIF", reducer := .counta, valueRange := false }

lemma Value.presence_of_kind {v : Value} (present : v.kind ≠ .null) (single : v.kind ≠ .array) :
    v.presence = 1 := by
  cases v with
  | null => exact absurd rfl present
  | array items => exact absurd rfl single
  | _ => rfl

/-- The values of arguments leave a context that has only grown. -/
lemma Expr.grows_of_reaches_prepare {es : List Expr} {s t : State}
    {outcome : Except Fault (List Value)}
    (h : Reaches (fun n => prepare (evaluate n) es) s outcome t) : s.context.Grows t.context := by
  obtain ⟨depth, run⟩ := h
  have runs : Course.growth.logic.Holds () (fun _ => prepare (evaluate depth) es) _ :=
    Course.growth.logic.prepare fun e _ => grows_evaluate depth e.argument
  have grows := (runs s trivial).1
  rwa [run] at grows

namespace Criterion

variable {operand range : Value} {verdicts : List Bool} {s m t : State}

/-! ### Counting what is kept -/

/-- Where each of the values that are kept counts once, they are as many as the candidates that are
accepted. -/
lemma countPresent_kept_eq_count {candidates : List Value}
    (length : verdicts.length = candidates.length)
    (single : ∀ v ∈ kept candidates verdicts, v.presence = 1) :
    Value.countPresent (kept candidates verdicts) = verdicts.count true := by
  induction candidates generalizing verdicts with
  | nil =>
    rw [List.length_eq_zero_iff.1 length]
    rfl
  | cons candidate candidates ih =>
    obtain ⟨verdict, verdicts, rfl⟩ := List.exists_cons_of_length_eq_add_one length
    have rest := ih (Nat.succ.inj length)
    cases verdict with
    | true =>
      simp only [kept_cons, if_true, List.forall_mem_cons] at single
      simp only [kept_cons, if_true, Value.countPresent, single.1, rest single.2,
        List.count_cons_self]
      exact Nat.add_comm _ _
    | false =>
      simp only [kept_cons, Bool.false_eq_true, if_false] at single
      simpa [kept_cons] using rest single

/-! ### Counting calls -/

/-- Only a text may be an operand that cannot be read. -/
lemma not_unreadable_of_kind {c : Context} (kind : operand.kind ≠ .text) (fault : Fault) :
    ¬ Unreadable c operand fault := by
  rintro ⟨text, _, _, rfl, _⟩
  exact kind rfl

/-- Once the range and the operand have their values and all candidates are judged, what is kept is
counted. -/
lemma reaches_applyRange_countif (usual : s.context.convert = Value.cast)
    (readable : ∀ fault, ¬ Unreadable s.context operand fault)
    (judged : JudgesAll s.context operand range.toList verdicts s t) :
    Reaches (fun n => Function.applyRange (Expr.evaluate n) .countif [range, operand]) s
      (Aggregate.present (kept range.toList verdicts)) t := by
  have counts (kept : List Value) :
      RangeReducer.countif.reducer.reduce [.array kept] = Aggregate.present kept :=
    Reducer.reduce_array (by simp [Function.builtins, RangeReducer.countif]) kept
  have all : paired range.toList none = range.toList := List.take_length
  cases compiled : compile s.context operand with
  | error fault => exact absurd (compile_eq_error_iff.1 compiled) (readable fault)
  | ok criterion =>
    change Reaches (fun n => reduceMatching (Expr.evaluate n)
      (fun kept => ofExcept (RangeReducer.countif.reducer.reduce [.array kept])) range.toList none
      operand) s _ t
    simp only [counts]
    refine (reaches_reduceMatching_of_ok (fun _ _ => .rfl) usual compiled).2 (.inr ?_)
    rw [all]
    exact ⟨verdicts, t, judged, 0, rfl⟩

/-- Counting answers the number of leaves besides null among the candidates that are accepted. -/
lemma answers_countif {name : String} {arguments : List Expr}
    (known : s.context.function? name = .ok (some (.rangeReducer .countif)))
    (usual : s.context.convert = Value.cast)
    (prepared : Reaches (fun n => Expr.prepare (Expr.evaluate n) arguments) s
      (.ok [range, operand]) m)
    (readable : ∀ fault, ¬ Unreadable m.context operand fault)
    (judged : JudgesAll m.context operand range.toList verdicts m t) :
    (Expr.call name arguments).Answers s
      (.ok (.number (Value.countPresent (kept range.toList verdicts)).toFloat)) t := by
  have usual' : m.context.convert = Value.cast :=
    (Context.convert_eq_of_forget (Expr.grows_of_reaches_prepare prepared).alike).trans usual
  rw [Expr.answers_call_iff known]
  simp only [Function.apply_eq_bind (f := .rangeReducer .countif) trivial]
  exact prepared.bind (Expr.deepening_prepare arguments) (Function.deepening_onValues _ _)
    (reaches_applyRange_countif usual' readable judged)

/-- **`COUNTIF` counts what is in what it accepts.** Where values are converted in the usual way and
the name stands for `COUNTIF`, for every range and every operand that can be read and judges all
candidates, the answer is the number of leaves besides null, to whatever depth, of the candidates
that are accepted. If none of these is null or an array, it is the number of candidates that are
accepted. -/
theorem answers_countif_of_judgesAll {name : String} {arguments : List Expr}
    {range operand : Value} {verdicts : List Bool} {s m t : State}
    (known : s.context.function? name = .ok (some (.rangeReducer .countif)))
    (usual : s.context.convert = Value.cast)
    (prepared : Reaches (fun n => Expr.prepare (Expr.evaluate n) arguments) s
      (.ok [range, operand]) m)
    (readable : ∀ fault, ¬ Unreadable m.context operand fault)
    (judged : JudgesAll m.context operand range.toList verdicts m t) :
    (Expr.call name arguments).Answers s (.ok (.number
      (((kept range.toList verdicts).flatMap Value.leaves).countP (·.kind != .null)).toFloat)) t ∧
    ((∀ v ∈ kept range.toList verdicts, v.kind ≠ .null ∧ v.kind ≠ .array) →
      (Expr.call name arguments).Answers s (.ok (.number (verdicts.count true).toFloat)) t) := by
  have counted := answers_countif known usual prepared readable judged
  constructor
  · rwa [← Value.leavesOfList_eq_flatMap, ← Value.countPresent_eq_countP_leaves]
  · intro single
    rwa [countPresent_kept_eq_count judged.length_eq fun v mem =>
      Value.presence_of_kind (single v mem).1 (single v mem).2] at counted

/-- `COUNTIF` of `[["x", [NULL, "y"]], "x"]` accepts one array with two leaves besides null, and of
`[TRUE, NULL, TRUE]` it accepts two candidates that count once each. -/
theorem answers_countif_of_judgesAll_nested :
    let s : State := ⟨.root {}, []⟩
    let array : Value := .array [.text "x", .array [.null, .text "y"]]
    let nested : List Value := [array, .text "x"]
    let flat : List Value := [.boolean true, .null, .boolean true]
    s.context.function? "COUNTIF" = .ok (some (.rangeReducer .countif)) ∧
    s.context.convert = Value.cast ∧
    JudgesAll s.context array nested [true, false] s s ∧
    (Expr.call "COUNTIF" ([.array nested, array].map .literal)).Answers s
      (.ok (.number (Nat.toFloat 2))) s ∧
    JudgesAll s.context (.boolean true) flat [true, false, true] s s ∧
    (Expr.call "COUNTIF" ([.array flat, .boolean true].map .literal)).Answers s
      (.ok (.number (Nat.toFloat 2))) s := by
  intro s array nested flat
  have known : s.context.function? "COUNTIF" = .ok (some (.rangeReducer .countif)) := rfl
  have prepared (values : List Value) : Reaches
      (fun n => Expr.prepare (Expr.evaluate n) (values.map .literal)) s (.ok values) s :=
    ⟨1, congrArg (runFrom · s) (Expr.prepare_literals 0 values)⟩
  have judgedNested : JudgesAll s.context array nested [true, false] s s :=
    .cons (.equality (by decide)) (.cons (.equality (by decide)) .nil)
  have judgedFlat : JudgesAll s.context (.boolean true) flat [true, false, true] s s :=
    .cons (.equality (by decide)) (.cons (.equality (by decide))
      (.cons (.equality (by decide)) .nil))
  have countedNested := answers_countif_of_judgesAll known rfl (prepared [.array nested, array])
    (not_unreadable_of_kind (by decide)) judgedNested
  have countedFlat := answers_countif_of_judgesAll known rfl (prepared [.array flat, .boolean true])
    (not_unreadable_of_kind (by decide)) judgedFlat
  exact ⟨known, rfl, judgedNested, countedNested.1, judgedFlat, countedFlat.2 (by decide)⟩

/-- An accepted null is not counted: `COUNTIF([NULL, 1], NULL)` accepts one candidate and does not
answer one. -/
theorem not_answers_countif_of_null :
    let s : State := ⟨.root {}, []⟩
    let arguments : List Expr := [.array [.null, .number 1], .null]
    s.context.function? "COUNTIF" = .ok (some (.rangeReducer .countif)) ∧
    s.context.convert = Value.cast ∧
    Reaches (fun n => Expr.prepare (Expr.evaluate n) arguments) s
      (.ok [.array [.null, .number 1], .null]) s ∧
    (∀ fault, ¬ Unreadable s.context .null fault) ∧
    JudgesAll s.context .null [.null, .number 1] [true, false] s s ∧
    ∀ t, ¬ (Expr.call "COUNTIF" arguments).Answers s
      (.ok (.number ([true, false].count true).toFloat)) t := by
  intro s arguments
  have known : s.context.function? "COUNTIF" = .ok (some (.rangeReducer .countif)) := rfl
  have prepared : Reaches (fun n => Expr.prepare (Expr.evaluate n) arguments) s
      (.ok [.array [.null, .number 1], .null]) s := ⟨3, rfl⟩
  have readable : ∀ fault, ¬ Unreadable s.context .null fault :=
    not_unreadable_of_kind (by decide)
  have judged : JudgesAll s.context .null [.null, .number 1] [true, false] s s :=
    .cons (.equality (by decide)) (.cons (.equality (by decide)) .nil)
  refine ⟨known, rfl, prepared, readable, judged, fun t answers => ?_⟩
  obtain ⟨same, -⟩ := (answers_countif known rfl prepared readable judged).unique answers
  have zero_eq_one : Nat.toFloat 0 = Nat.toFloat 1 := Value.number.inj (Except.ok.inj same)
  exact absurd (congrArg Float.toBits zero_eq_one) (by decide)

end Criterion

end Formula
