import Formula.Proofs.Evaluation.Arguments

/-!
# Aggregates and leaves

An aggregate looks at the numbers in its arguments or at how much there is besides null. Either way
it goes into arrays wherever they come, so it sees the leaves of its arguments and nothing of the
arrays that hold them. A filtering function may therefore hand over what it keeps as one array: its
aggregate answers what it would answer for the kept values as arguments of their own.
-/

namespace Formula

open Evaluation

/-! ### Going into arrays -/

namespace Value

mutual

/-- Collecting finds the numbers among the leaves of a value, the last one first. -/
lemma collect_eq (found : List Float) (v : Value) :
    v.collect found = (v.leaves.filterMap asNumber?).reverse ++ found := by
  match v with
  | .array items =>
    rw [collect, leaves]
    exact collectAll_eq found items
  | .number x => simp [collect, leaves, asNumber?]
  | .text _ | .boolean _ | .null | .lambda _ _ => simp [collect, leaves, asNumber?]

lemma collectAll_eq (found : List Float) (values : List Value) :
    collectAll found values = ((leavesOfList values).filterMap asNumber?).reverse ++ found := by
  match values with
  | [] => rfl
  | v :: vs =>
    rw [collectAll, collectAll_eq, collect_eq found v, leavesOfList, List.filterMap_append,
      List.reverse_append, List.append_assoc]

end

/-- The numbers in values are the numbers among their leaves. -/
lemma numbers_eq_filterMap_leaves (values : List Value) :
    numbers values = (leavesOfList values).filterMap asNumber? := by
  rw [numbers, collectAll_eq, List.append_nil, List.reverse_reverse]

mutual

/-- There is as much in a value as there are leaves besides null. -/
lemma presence_eq_countP_leaves (v : Value) : v.presence = v.leaves.countP (·.kind != .null) := by
  match v with
  | .array items =>
    rw [presence, leaves]
    exact countPresent_eq_countP_leaves items
  | .null => rfl
  | .number _ | .text _ | .boolean _ | .lambda _ _ => rfl

lemma countPresent_eq_countP_leaves (values : List Value) :
    countPresent values = (leavesOfList values).countP (·.kind != .null) := by
  match values with
  | [] => rfl
  | v :: vs =>
    rw [countPresent, leavesOfList, List.countP_append, presence_eq_countP_leaves v,
      countPresent_eq_countP_leaves vs]

end

end Value

/-! ### Aggregates -/

namespace Reducer

/-- What an aggregate answers is decided by the leaves of its arguments. -/
lemma reduce_eq_of_leavesOfList {r : Reducer} (builtin : Function.reducer r ∈ Function.builtins)
    {values others : List Value} (same : Value.leavesOfList values = Value.leavesOfList others) :
    r.reduce values = r.reduce others := by
  have numbers : Value.numbers values = Value.numbers others := by
    rw [Value.numbers_eq_filterMap_leaves, Value.numbers_eq_filterMap_leaves, same]
  have present : Value.countPresent values = Value.countPresent others := by
    rw [Value.countPresent_eq_countP_leaves, Value.countPresent_eq_countP_leaves, same]
  have mem : r ∈ [sum, count, counta, average, avg, max, min] := by
    simpa [Function.builtins] using builtin
  simp only [List.mem_cons, List.not_mem_nil, or_false] at mem
  rcases mem with rfl | rfl | rfl | rfl | rfl | rfl | rfl
  · simp only [sum, Aggregate.sum, numbers]
  · simp only [count, Aggregate.count, numbers]
  · simp only [counta, Aggregate.present, present]
  · simp only [average, Aggregate.average, numbers]
  · simp only [avg, Aggregate.average, numbers]
  · simp only [max, Aggregate.max, numbers]
  · simp only [min, Aggregate.min, numbers]

/-- One array of values and the values themselves have the same leaves. -/
lemma reduce_array {r : Reducer} (builtin : Function.reducer r ∈ Function.builtins)
    (values : List Value) : r.reduce [.array values] = r.reduce values :=
  reduce_eq_of_leavesOfList builtin (List.append_nil (Value.leavesOfList values))

end Reducer

/-! ### Filtering functions -/

/-- Reduces the part of a range that meets a criterion by a call of the aggregate that has each
value kept as an argument of its own. -/
def Function.applyRangeApart (evaluate : Evaluator) (r : RangeReducer) (values : List Value) :
    Evaluation Value := do
  let _ ← ofExcept (rangeShape r values.length)
  Criterion.reduceMatching evaluate
    (fun kept => (Function.reducer r.reducer).apply evaluate (kept.map .literal))
    ((values[0]?.map Value.toList).getD []) (values[2]?.map Value.toList)
    (values[1]?.getD .null)

/-- **Aggregates see only the leaves.** An aggregate that is there without being added answers the
same value or the same fault for any two lists of arguments that have the same leaves from left to
right. So a filtering function over such an aggregate, which hands over all that it keeps as one
array, does just what it would do by calling the aggregate on the kept values one by one. -/
theorem Reducer.reduce_eq_of_same_leaves {r : Reducer}
    (builtin : Function.reducer r ∈ Function.builtins) :
    (∀ values others, Value.leavesOfList values = Value.leavesOfList others →
      r.reduce values = r.reduce others) ∧
    ∀ (name : String) (valueRange : Bool) (depth : ℕ) (values : List Value),
      Function.applyRange (Expr.evaluate (depth + 1)) ⟨name, r, valueRange⟩ values =
        Function.applyRangeApart (Expr.evaluate (depth + 1)) ⟨name, r, valueRange⟩ values := by
  refine ⟨fun values others same => reduce_eq_of_leavesOfList builtin same, ?_⟩
  intro name valueRange depth values
  have apart (kept : List Value) :
      (Function.reducer r).apply (Expr.evaluate (depth + 1)) (kept.map .literal) =
        ofExcept (r.reduce [.array kept]) := by
    rw [Function.apply, Expr.prepare_literals, pure_bind, reduce_array builtin]
  simp only [Function.applyRange, Function.applyRangeApart, apart]

/-- `COUNTA` of `[NULL, ["x"]]` and `TRUE`, and of `NULL` and `[["x"], TRUE]`; and `COUNTIF` with
it. -/
theorem Reducer.reduce_eq_of_same_leaves_nested :
    let values : List Value := [.array [.null, .array [.text "x"]], .boolean true]
    let others : List Value := [.null, .array [.array [.text "x"], .boolean true]]
    Function.reducer .counta ∈ Function.builtins ∧
    Value.leavesOfList values = Value.leavesOfList others ∧
    counta.reduce values = counta.reduce others ∧
    Function.applyRange (Expr.evaluate 1) ⟨"COUNTIF", .counta, false⟩ [.array values, .null] =
      Function.applyRangeApart (Expr.evaluate 1) ⟨"COUNTIF", .counta, false⟩
        [.array values, .null] := by
  intro values others
  have builtin : Function.reducer .counta ∈ Function.builtins := by simp [Function.builtins]
  have same : Value.leavesOfList values = Value.leavesOfList others := rfl
  obtain ⟨reduces, filters⟩ := reduce_eq_of_same_leaves builtin
  exact ⟨builtin, same, reduces values others same, filters "COUNTIF" false 0 _⟩

end Formula
