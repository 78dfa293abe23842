import Formula.Proofs.Arguments.Counts
import Formula.Proofs.Evaluation.Arguments
import Mathlib.Data.List.Basic

/-!
# Declared parameters and arguments

What a function declares of its parameters is what it holds its arguments to. A number of arguments
for which it declares nothing is refused before anything else is done, or, where values are counted,
as soon as there are values. Otherwise there is a parameter for each argument, and the binding
constructs, which go through their arguments by themselves, take as a name what is declared to be a
name, leave unevaluated what is declared to be lazy, and have one body, which comes last.
-/

namespace Formula

open Evaluation

/-! ### Arguments by kind -/

/-- The arguments that are declared to be of a kind, each with its position. The first argument is
at position `first`. -/
def argumentsAt (kind : ParameterKind) (first : ℕ) (parameters : List Parameter)
    (arguments : List Expr) : List (Expr × ℕ) :=
  ((parameters.zip (arguments.zipIdx first)).filter fun p => p.1.kind = kind).map Prod.snd

/-- The names that arguments at positions give. -/
def namesAt (evaluate : Evaluator) : List (Expr × ℕ) → Evaluation (List (String × ℕ))
  | [] => pure []
  | (e, position) :: rest => do
    let name ← Expr.bindingName evaluate position e
    let names ← namesAt evaluate rest
    return (name, position) :: names

/-- The bindings of names to unevaluated arguments. -/
def deferredBindings (names : List (String × ℕ)) (values : List (Expr × ℕ)) : List Binding :=
  names.zipWith (fun name value => ⟨name.1, name.2, .deferred value.1 none⟩) values

section

variable {kind : ParameterKind} {first : ℕ} {parameters : List Parameter} {arguments : List Expr}

@[simp] lemma argumentsAt_cons (p : Parameter) (e : Expr) :
    argumentsAt kind first (p :: parameters) (e :: arguments) =
      if p.kind = kind then (e, first) :: argumentsAt kind (first + 1) parameters arguments
      else argumentsAt kind (first + 1) parameters arguments := by
  by_cases same : p.kind = kind <;> simp [argumentsAt, same]

/-- The last argument stands where the last parameter is declared. -/
lemma argumentsAt_concat (same : parameters.length = arguments.length) (p : Parameter) (e : Expr) :
    argumentsAt kind first (parameters ++ [p]) (arguments ++ [e]) =
      argumentsAt kind first parameters arguments ++
        if p.kind = kind then [(e, first + arguments.length)] else [] := by
  rw [argumentsAt, List.zipIdx_append, List.zip_append (by simpa using same), List.filter_append,
    List.map_append]
  by_cases here : p.kind = kind <;> simp [argumentsAt, here]

lemma argumentsAt_eq_nil (other : ∀ p ∈ parameters, p.kind ≠ kind) :
    argumentsAt kind first parameters arguments = [] := by
  rw [argumentsAt, List.map_eq_nil_iff, List.filter_eq_nil_iff]
  rintro ⟨p, e⟩ mem
  simpa using other p (List.of_mem_zip mem).1

end

namespace Function

variable (evaluate : Evaluator) {count first : ℕ} {parameters : List Parameter}
  {arguments : List Expr}

/-! ### Names and values in turn -/

/-- The parameters of the pair with a number. -/
def pairParameters (i : ℕ) : List Parameter :=
  [⟨"name" ++ toString (i + 1), .name⟩, ⟨"value" ++ toString (i + 1), .lazy⟩]

lemma exists_pairs_of_letShape (h : letShape count = .ok parameters) :
    ∃ is : List ℕ, count = 2 * is.length + 1 ∧
      parameters = is.flatMap pairParameters ++ [⟨"calculation", .body⟩] := by
  unfold letShape at h
  split_ifs at h with none even
  cases h
  refine ⟨List.range (count / 2), ?_, rfl⟩
  rw [List.length_range]
  omega

lemma length_pairs (is : List ℕ) : (is.flatMap pairParameters).length = 2 * is.length := by
  induction is with
  | nil => rfl
  | cons i is ih =>
    simp only [List.flatMap_cons, List.length_append, ih, pairParameters, List.length_cons,
      List.length_nil]
    omega

/-- Pairs make bindings of what is declared to be a name to what is declared to be lazy. -/
lemma letBindings_eq {is : List ℕ} (length : arguments.length = 2 * is.length) :
    Expr.letBindings evaluate first arguments =
      namesAt evaluate (argumentsAt .name first (is.flatMap pairParameters) arguments) >>=
        fun names => pure (deferredBindings names
          (argumentsAt .lazy first (is.flatMap pairParameters) arguments)) := by
  induction is generalizing first arguments with
  | nil =>
    obtain rfl := List.eq_nil_of_length_eq_zero length
    rfl
  | cons i is ih =>
    match arguments with
    | [] => cases length
    | [_] =>
      simp only [List.length_cons, List.length_nil] at length
      omega
    | name :: value :: rest =>
      have length : rest.length = 2 * is.length := by
        simp only [List.length_cons] at length
        omega
      simp [Expr.letBindings, ih length, pairParameters, namesAt, deferredBindings]

lemma argumentsAt_body_pairs (is : List ℕ) :
    argumentsAt .body first (is.flatMap pairParameters) arguments = [] := by
  refine argumentsAt_eq_nil fun p mem => ?_
  obtain ⟨i, -, mem⟩ := List.mem_flatMap.1 mem
  simp only [pairParameters, List.mem_cons, List.not_mem_nil, or_false] at mem
  rcases mem with rfl | rfl <;> simp

/-- What `LET` does with arguments that its parameters are declared for. -/
lemma applyLet_of_shape (shape : letShape arguments.length = .ok parameters) :
    ∃ body, arguments.getLast? = some body ∧
      argumentsAt .body 1 parameters arguments = [(body, arguments.length)] ∧
      applyLet evaluate arguments = (do
        let names ← namesAt evaluate (argumentsAt .name 1 parameters arguments)
        if names = [] then evaluate body
        else
          inScope (deferredBindings names (argumentsAt .lazy 1 parameters arguments))
            (evaluate body)) := by
  obtain ⟨is, counted, rfl⟩ := exists_pairs_of_letShape shape
  rcases List.eq_nil_or_concat' arguments with rfl | ⟨pairs, body, rfl⟩
  · simp at counted
  · have length : pairs.length = 2 * is.length := by simpa using counted
    have same : (is.flatMap pairParameters).length = pairs.length := by rw [length_pairs, length]
    refine ⟨body, List.getLast?_concat, ?_, ?_⟩
    · simp [argumentsAt_concat same, argumentsAt_body_pairs, Nat.add_comm]
    · simp only [applyLet, shape, Evaluation.ofExcept, pure_bind, List.dropLast_concat,
        List.getLast?_concat, argumentsAt_concat same, reduceCtorEq, if_false, List.append_nil]
      -- Without a pair no scope is opened; of a pair there is a name.
      match is, pairs with
      | [], [] => rfl
      | i :: is, name :: value :: rest =>
        simp only [letBindings_eq evaluate length, bind_assoc, pure_bind]
        simp [pairParameters, namesAt]

/-! ### Names only -/

lemma kind_of_mem_numbered {stem : String} {kind : ParameterKind} {p : Parameter}
    (mem : p ∈ numbered stem kind count) : p.kind = kind := by
  obtain ⟨i, -, rfl⟩ := List.mem_map.1 mem
  rfl

/-- Parameters of one kind are declared for all arguments. -/
lemma argumentsAt_numbered (stem : String) (kind : ParameterKind) :
    argumentsAt kind first (numbered stem kind arguments.length) arguments =
      arguments.zipIdx first := by
  have all : ∀ p ∈ (numbered stem kind arguments.length).zip (arguments.zipIdx first),
      decide (p.1.kind = kind) = true :=
    fun p mem => decide_eq_true (kind_of_mem_numbered (List.of_mem_zip mem).1)
  rw [argumentsAt, List.filter_eq_self.2 all, List.map_snd_zip]
  simp

lemma namesAt_zipIdx (es : List Expr) :
    namesAt evaluate (es.zipIdx first) = Expr.bindingNames evaluate first es >>= fun names =>
      pure (names.zipIdx first) := by
  induction es generalizing first with
  | nil => rfl
  | cons e es ih => simp [namesAt, Expr.bindingNames, ih]

/-- What `LAMBDA` does with arguments that its parameters are declared for. -/
lemma applyLambda_of_shape (shape : lambdaShape arguments.length = .ok parameters) :
    ∃ body, arguments.getLast? = some body ∧
      argumentsAt .body 1 parameters arguments = [(body, arguments.length)] ∧
      argumentsAt .lazy 1 parameters arguments = [] ∧
      applyLambda evaluate arguments = (do
        let names ← namesAt evaluate (argumentsAt .name 1 parameters arguments)
        ofExcept (validateNames (← context).policy names)
        return .lambda (names.map Prod.fst) body) := by
  rcases List.eq_nil_or_concat' arguments with rfl | ⟨names, body, rfl⟩
  · cases shape
  · have declared : parameters =
        numbered "parameter" .name names.length ++ [⟨"calculation", .body⟩] := by
      simpa [lambdaShape, eq_comm] using shape
    subst declared
    have same : (numbered "parameter" .name names.length).length = names.length := by simp
    have others (kind : ParameterKind) (other : kind ≠ .name) :
        argumentsAt kind 1 (numbered "parameter" .name names.length) names = [] :=
      argumentsAt_eq_nil fun p mem => by simpa [kind_of_mem_numbered mem] using other.symm
    refine ⟨body, List.getLast?_concat, ?_, ?_, ?_⟩
    · simp [argumentsAt_concat same, others, Nat.add_comm]
    · simp [argumentsAt_concat same, others]
    · simp only [applyLambda, shape, Evaluation.ofExcept, pure_bind, List.dropLast_concat,
        List.getLast?_concat, argumentsAt_concat same, reduceCtorEq, if_false, List.append_nil,
        argumentsAt_numbered, namesAt_zipIdx, bind_assoc, Expr.lambdaParameters,
        List.zipIdx_map_fst]

/-! ### Enforcement -/

/-- There are as many parameters as they are declared for. -/
lemma length_of_shape {f : Function} (shape : f.shape count = .ok parameters) :
    parameters.length = count := by
  cases f with
  | letForm =>
    obtain ⟨is, rfl, rfl⟩ := exists_pairs_of_letShape shape
    rw [List.length_append, length_pairs]
    rfl
  | lambdaForm =>
    simp only [Function.shape, lambdaShape] at shape
    split_ifs at shape with none
    cases shape
    simp only [List.length_append, length_numbered, List.length_singleton]
    omega
  | reducer r =>
    cases shape
    simp
  | rangeReducer r =>
    simp only [Function.shape, rangeShape] at shape
    split_ifs at shape <;> cases shape <;> simp <;> omega
  | host f =>
    obtain ⟨-, rfl⟩ := hostShape_eq_ok_iff.1 shape
    simp

/-- Functions that are given values declare nothing but values. -/
lemma kinds_of_shape {f : Function} (takes : f.TakesValues)
    (shape : f.shape count = .ok parameters) : ∀ p ∈ parameters, p.kind = .value := by
  cases f with
  | letForm => exact takes.elim
  | lambdaForm => exact takes.elim
  | reducer r =>
    cases shape
    exact fun p => kind_of_mem_numbered
  | rangeReducer r =>
    simp only [Function.shape, rangeShape] at shape
    split_ifs at shape <;> cases shape <;> simp
  | host f =>
    obtain ⟨-, rfl⟩ := hostShape_eq_ok_iff.1 shape
    exact fun p => kind_of_mem_numbered

/-- That a function is applied to no other number of arguments than it declares parameters for: the
binding constructs count the arguments, other functions their values. -/
structure EnforcesShape (f : Function) : Prop where
  /-- There are as many parameters as they are declared for. -/
  length : ∀ {count parameters}, f.shape count = .ok parameters → parameters.length = count
  /-- Functions that are given values declare nothing but values. -/
  kinds : f.TakesValues → ∀ {count parameters}, f.shape count = .ok parameters →
    ∀ p ∈ parameters, p.kind = .value
  /-- A binding construct that is refused its arguments evaluates none of them. -/
  refusesArguments : ¬ f.TakesValues → ∀ (evaluate : Evaluator) (arguments : List Expr)
    (fault : Fault) (s : State), f.shape arguments.length = .error fault →
    (f.apply evaluate arguments).runFrom s = (.error (.fault fault), s)
  /-- Arguments without values are not counted. -/
  needsValues : f.TakesValues → ∀ (evaluate : Evaluator) (arguments : List Expr)
    (failure : Failure) (s t : State),
    (Expr.prepare evaluate arguments).runFrom s = (.error failure, t) →
    (f.apply evaluate arguments).runFrom s = (.error failure, t)
  /-- A function that is refused the values of its arguments does nothing with them. -/
  refusesValues : f.TakesValues → ∀ (evaluate : Evaluator) (arguments : List Expr)
    (values : List Value) (fault : Fault) (s t : State),
    (Expr.prepare evaluate arguments).runFrom s = (.ok values, t) →
    f.shape values.length = .error fault →
    (f.apply evaluate arguments).runFrom s = (.error (.fault fault), t)

lemma enforcesShape (f : Function) : f.EnforcesShape where
  length := length_of_shape
  kinds takes _ _ := kinds_of_shape takes
  refusesArguments written evaluate arguments fault s refused := by
    cases f with
    | letForm =>
      simp only [shape] at refused
      simp only [apply, applyLet, refused]
      rfl
    | lambdaForm =>
      simp only [shape] at refused
      simp only [apply, applyLambda, refused]
      rfl
    | _ => exact absurd trivial written
  needsValues takes evaluate arguments failure s t prepared := by
    rw [apply_eq_bind takes, runFrom_bind, prepared]
  refusesValues takes evaluate arguments values fault s t prepared refused := by
    rw [apply_eq_bind takes, runFrom_bind_of_ok prepared, onValues_of_shape takes refused,
      runFrom_fail]

/-- **What a function declares is what it holds its arguments to.** It does nothing with a number of
arguments or values that it declares no parameters for, and otherwise there is a parameter for each
of them. The arguments that `LET` and `LAMBDA` declare to be names are those whose names they take,
with the positions that their faults tell; what `LET` declares to be lazy is what it binds
unevaluated, and the one body is the last argument. So nowhere in an evaluation is a host function
executed on fewer or more values than it takes. -/
theorem apply_enforces_shape :
    (∀ f : Function, f.EnforcesShape) ∧
    (∀ (evaluate : Evaluator) (arguments : List Expr) (parameters : List Parameter),
      letForm.shape arguments.length = .ok parameters →
      ∃ body, arguments.getLast? = some body ∧
        argumentsAt .body 1 parameters arguments = [(body, arguments.length)] ∧
        letForm.apply evaluate arguments = (do
          let names ← namesAt evaluate (argumentsAt .name 1 parameters arguments)
          if names = [] then evaluate body
          else
            inScope (deferredBindings names (argumentsAt .lazy 1 parameters arguments))
              (evaluate body))) ∧
    (∀ (evaluate : Evaluator) (arguments : List Expr) (parameters : List Parameter),
      lambdaForm.shape arguments.length = .ok parameters →
      ∃ body, arguments.getLast? = some body ∧
        argumentsAt .body 1 parameters arguments = [(body, arguments.length)] ∧
        argumentsAt .lazy 1 parameters arguments = [] ∧
        lambdaForm.apply evaluate arguments = (do
          let names ← namesAt evaluate (argumentsAt .name 1 parameters arguments)
          ofExcept (validateNames (← context).policy names)
          return .lambda (names.map Prod.fst) body)) ∧
    ∀ (depth : ℕ) (e : Expr) (s : State), s.AdmittedTo ((Expr.evaluate depth e).runFrom s).2 :=
  ⟨enforcesShape, fun evaluate _ _ => applyLet_of_shape evaluate,
    fun evaluate _ _ => applyLambda_of_shape evaluate, Expr.admitted_evaluate⟩

/-- A host function for two or three values refuses the one value of a spread, and is executed on
the three values of two arguments. `LET(a, PAIR(), "b", a, b)` takes its names at positions 1
and 3. -/
theorem apply_enforces_shape_pair :
    let f : HostFunction :=
      { name := "PAIR", least := 2, most? := some 3, execute := fun _ _ => .ok .null }
    let s : State := ⟨.root { registry := Registry.empty.insert "PAIR" (.host f) }, []⟩
    let fault : Fault := .arity (.tooFew "PAIR" 2 1)
    let single : List Expr := [.spread (.array [.null])]
    let triple : Expr := .call "PAIR" [.null, .spread (.array [.null, .null])]
    let arguments : List Expr :=
      [.variable "a", .call "PAIR" [], .text "b", .variable "a", .variable "b"]
    let names : List (Expr × ℕ) := [(.variable "a", 1), (.text "b", 3)]
    let values : List (Expr × ℕ) := [(.call "PAIR" [], 2), (.variable "a", 4)]
    ((Function.host f).shape 1 = .error fault ∧
      ((Function.host f).apply (Expr.evaluate 2) single).runFrom s =
        (.error (.fault fault), s)) ∧
    (letForm.apply (Expr.evaluate 2) arguments = do
      let names ← namesAt (Expr.evaluate 2) names
      if names = [] then Expr.evaluate 2 (.variable "b")
      else inScope (deferredBindings names values) (Expr.evaluate 2 (.variable "b"))) ∧
    ((Expr.evaluate 3 triple).runFrom s).2.history = [⟨"PAIR", true, [.null, .null, .null]⟩] ∧
    s.AdmittedTo ((Expr.evaluate 3 triple).runFrom s).2 := by
  intro f s fault single triple arguments names values
  obtain ⟨enforces, lets, -, admitted⟩ := apply_enforces_shape
  have prepared : (Expr.prepare (Expr.evaluate 2) single).runFrom s = (.ok [.null], s) := rfl
  have refused : (Function.host f).shape 1 = .error fault := rfl
  have fails := (enforces (.host f)).refusesValues trivial (Expr.evaluate 2) single _ fault s s
    prepared refused
  have declared : letForm.shape 5 =
      .ok ((List.range 2).flatMap pairParameters ++ [⟨"calculation", .body⟩]) := rfl
  obtain ⟨body, last, -, applied⟩ := lets (Expr.evaluate 2) arguments _ declared
  cases last
  exact ⟨⟨refused, fails⟩, applied, rfl, admitted 3 triple s⟩

end Function

end Formula
