import Formula.Proofs.Grammar.Words
import Formula.Proofs.Let.Eager
import Formula.Proofs.Memo.Growth

/-!
# Names that are refused

The names of one scope are checked from left to right, and the first one that cannot be bound is
what the fault is about: where it stands among the arguments, and the first of the three things that
may be wrong with it. What `LAMBDA` has checked need not be checked again. Wherever names compare in
the same way, a scope with the parameters of a lambda can be opened if there is room for it, so a
call with as many values as parameters comes to its body or fails for want of room.
-/

namespace Formula

open Evaluation

/-! ### What may be wrong with a name -/

/-- That a character is one of the letters from `a` to `z`, in either case, or an underscore. -/
def IsPlainLetter (c : Char) : Prop := 'a' ≤ c ∧ c ≤ 'z' ∨ 'A' ≤ c ∧ c ≤ 'Z' ∨ c = '_'

/-- That a name is made of such characters and of digits, and does not start with a digit. -/
def IsPlainName (name : String) : Prop :=
  ∃ first rest, name.toList = first :: rest ∧ IsPlainLetter first ∧
    ∀ c ∈ rest, IsPlainLetter c ∨ '0' ≤ c ∧ c ≤ '9'

/-- That names can be bound together in one scope. -/
structure FitTogether (policy : CasePolicy) (names : List String) : Prop where
  plain : ∀ name ∈ names, IsPlainName name
  distinct : names.Pairwise fun a b => ¬ policy.namesEqual a b

/-- What is wrong with a name that stands behind others: the first of three faults. -/
inductive FirstFault (policy : CasePolicy) (earlier : List String) (name : String)
    (position : ℕ) : NamingFault → Prop
  | separator (contains : '.' ∈ name.toList) :
      FirstFault policy earlier name position (.containsSeparator name position)
  | shape (free : '.' ∉ name.toList) (strange : ¬ IsPlainName name) :
      FirstFault policy earlier name position (.notIdentifier name position)
  | duplicate (plain : IsPlainName name) {other : String} (mem : other ∈ earlier)
      (equal : policy.namesEqual other name) :
      FirstFault policy earlier name position (.duplicate name position)

lemma isWordStart_iff_isPlainLetter {c : Char} : Tokens.isWordStart c ↔ IsPlainLetter c := by
  rw [Tokens.isWordStart_iff, ← or_assoc, or_comm (a := _ ∧ _), or_assoc]
  exact Iff.rfl

lemma isWordPart_iff_isPlainLetter {c : Char} :
    Tokens.isWordPart c ↔ IsPlainLetter c ∨ '0' ≤ c ∧ c ≤ '9' := by
  rw [Tokens.isWordPart_iff, isWordStart_iff_isPlainLetter]
  exact Iff.rfl

lemma isIdentifier_iff_isPlainName {name : String} :
    isIdentifier name.toList ↔ IsPlainName name := by
  rw [Tokens.isIdentifier_iff, IsPlainName]
  cases name.toList with
  | nil => simp
  | cons c cs =>
    simp only [List.head?_cons, Option.any_some, List.forall_mem_cons, List.cons.injEq,
      isWordStart_iff_isPlainLetter, isWordPart_iff_isPlainLetter]
    constructor
    · rintro ⟨start, -, parts⟩
      exact ⟨c, cs, ⟨rfl, rfl⟩, start, parts⟩
    · rintro ⟨_, _, ⟨rfl, rfl⟩, start, parts⟩
      exact ⟨start, .inl start, parts⟩

/-! ### Checking names -/

section

variable {policy : CasePolicy} {seen : List String} {name : String} {position : ℕ}
  {names : List (String × ℕ)}

/-- Names that pass the check are names that fit together. -/
lemma validateNames_eq_ok_iff_fitTogether :
    validateNames policy names = .ok () ↔ FitTogether policy (names.map Prod.fst) := by
  rw [validateNames_eq_ok_iff]
  simp only [isIdentifier_iff_isPlainName, ← Bool.not_eq_true]
  exact ⟨fun h => ⟨h.1, h.2⟩, fun h => ⟨h.plain, h.distinct⟩⟩

/-- The check stops at a name for its first fault, or there is none and the check goes on. -/
lemma checkNames_cons (policy : CasePolicy) (seen : List String) (name : String) (position : ℕ) :
    (∃ cause, FirstFault policy seen name position cause ∧ ∀ rest,
      checkNames policy seen ((name, position) :: rest) = .error (.naming cause)) ∨
    (∀ cause, ¬ FirstFault policy seen name position cause) ∧ ∀ rest,
      checkNames policy seen ((name, position) :: rest) = checkNames policy (name :: seen) rest := by
  simp only [checkNames]
  split_ifs with contains strange equal
  · exact .inl ⟨_, .separator contains, fun _ => rfl⟩
  · rw [Bool.not_eq_true', ← Bool.not_eq_true, isIdentifier_iff_isPlainName] at strange
    exact .inl ⟨_, .shape contains strange, fun _ => rfl⟩
  · rw [Bool.not_eq_true', Bool.not_eq_false, isIdentifier_iff_isPlainName] at strange
    obtain ⟨other, mem, equal⟩ := List.any_eq_true.1 equal
    exact .inl ⟨_, .duplicate strange mem equal, fun _ => rfl⟩
  · rw [Bool.not_eq_true', Bool.not_eq_false, isIdentifier_iff_isPlainName] at strange
    refine .inr ⟨?_, fun _ => rfl⟩
    rintro cause (contains' | ⟨-, strange'⟩ | ⟨-, mem, equal'⟩)
    · exact contains contains'
    · exact strange' strange
    · exact equal (List.any_eq_true.2 ⟨_, mem, equal'⟩)

/-- A name has one first fault at most. -/
lemma FirstFault.unique {cause cause' : NamingFault}
    (h : FirstFault policy seen name position cause)
    (h' : FirstFault policy seen name position cause') : cause = cause' := by
  have free (plain : IsPlainName name) : '.' ∉ name.toList :=
    not_mem_of_isIdentifier (isIdentifier_iff_isPlainName.2 plain)
  cases h with
  | separator contains =>
    cases h' with
    | separator => rfl
    | shape free _ => exact absurd contains free
    | duplicate plain => exact absurd contains (free plain)
  | shape unmarked strange =>
    cases h' with
    | separator contains => exact absurd contains unmarked
    | shape => rfl
    | duplicate plain => exact absurd plain strange
  | duplicate plain =>
    cases h' with
    | separator contains => exact absurd contains (free plain)
    | shape _ strange => exact absurd plain strange
    | duplicate => rfl

/-- The check stops at the first name with a fault, and says what is wrong with it. -/
lemma checkNames_eq_error_iff {fault : Fault} :
    checkNames policy seen names = .error fault ↔
      ∃ before name position after cause, names = before ++ (name, position) :: after ∧
        checkNames policy seen before = .ok () ∧
        FirstFault policy ((before.map Prod.fst).reverse ++ seen) name position cause ∧
        fault = .naming cause := by
  induction names generalizing seen with
  | nil => simp [checkNames]
  | cons n names ih =>
    obtain ⟨name, position⟩ := n
    rcases checkNames_cons policy seen name position with ⟨cause, first, stops⟩ | ⟨none, goesOn⟩
    · rw [stops, Except.error.injEq]
      constructor
      · rintro rfl
        exact ⟨[], name, position, names, cause, rfl, rfl, first, rfl⟩
      · rintro ⟨_ | ⟨n, before⟩, name', position', after, cause', split, passed, first', rfl⟩
        · cases split
          rw [first.unique first']
        · cases split
          rw [stops] at passed
          cases passed
    · rw [goesOn, ih]
      constructor
      · rintro ⟨before, name', position', after, cause, rfl, passed, first, rfl⟩
        refine ⟨(name, position) :: before, name', position', after, cause, rfl, ?_, ?_, rfl⟩
        · rw [goesOn, passed]
        · simpa using first
      · rintro ⟨_ | ⟨n, before⟩, name', position', after, cause, split, passed, first, rfl⟩
        · cases split
          exact absurd first (none cause)
        · cases split
          rw [goesOn] at passed
          exact ⟨before, name', position', after, cause, rfl, passed, by simpa using first, rfl⟩

/-- What was seen before a name matters in no order. -/
lemma FirstFault.mono {earlier : List String} {cause : NamingFault}
    (h : FirstFault policy seen name position cause) (mem : ∀ other ∈ seen, other ∈ earlier) :
    FirstFault policy earlier name position cause := by
  cases h with
  | separator contains => exact .separator contains
  | shape free strange => exact .shape free strange
  | duplicate plain other equal => exact .duplicate plain (mem _ other) equal

/-- Names are refused for the first one that does not fit with those before it. -/
lemma validateNames_eq_error_iff {fault : Fault} :
    validateNames policy names = .error fault ↔
      ∃ before name position after cause, names = before ++ (name, position) :: after ∧
        FitTogether policy (before.map Prod.fst) ∧
        FirstFault policy (before.map Prod.fst) name position cause ∧ fault = .naming cause := by
  rw [validateNames, checkNames_eq_error_iff]
  simp only [← validateNames_eq_ok_iff_fitTogether, validateNames, List.append_nil]
  constructor
  · rintro ⟨before, name, position, after, cause, split, passed, first, rfl⟩
    exact ⟨before, name, position, after, cause, split, passed, first.mono (by simp), rfl⟩
  · rintro ⟨before, name, position, after, cause, split, passed, first, rfl⟩
    exact ⟨before, name, position, after, cause, split, passed, first.mono (by simp), rfl⟩

end

/-! ### Lambdas -/

section

variable {parameters : List String} {values : List Value} {body : Expr} {c : Context}

/-- For parameters that fit together a scope can be opened wherever there is room for it. -/
lemma Context.push_parameterBindings (length : values.length = parameters.length)
    (fit : FitTogether c.policy parameters) :
    c.push (Function.parameterBindings parameters values) =
      if c.depth < maxScopeDepth then
        .ok (c.scope.bind (Function.parameterBindings parameters values))
      else .error (.evaluation .nestingTooDeep) := by
  split_ifs with room
  · refine Context.push_eq_ok_iff.2 ⟨room, validateNames_eq_ok_iff_fitTogether.2 ?_, rfl⟩
    rwa [Function.map_name_parameterBindings length]
  · exact Context.push_eq_error_iff.2 (.inl ⟨Nat.le_of_not_lt room, rfl⟩)

/-- Work in a scope comes to what it comes to inside, or to why the scope cannot be opened. -/
lemma reaches_inScope_iff {bindings : List Binding} {e : Expr} {s t : State}
    {outcome : Except Fault Value} :
    Reaches (fun n => inScope bindings (Expr.evaluate n e)) s outcome t ↔
      match s.context.push bindings with
      | .error fault => outcome = .error fault ∧ t = s
      | .ok inner => ∃ u, e.Answers ⟨inner, s.history⟩ outcome u ∧ t = u.within .leave := by
  cases pushed : s.context.push bindings with
  | error fault =>
    rw [reaches_iff_of_runs fun _ => runFrom_inScope_of_error pushed, Prod.mk.injEq, eq_comm (b := t)]
    exact and_congr_left' ⟨fun same => (mapError_fault_injective (x := .error fault) same).symm,
      fun same => same ▸ rfl⟩
  | ok inner =>
    simp only [Reaches, runFrom_inScope_of_ok pushed, Prod.mk.injEq]
    constructor
    · rintro ⟨depth, same, rfl⟩
      exact ⟨_, ⟨depth, Prod.ext same rfl⟩, rfl⟩
    · rintro ⟨u, ⟨depth, run⟩, rfl⟩
      exact ⟨depth, congrArg Prod.fst run, congrArg (fun r => r.2.within Context.leave) run⟩

/-- Names are checked by the policy of the context that is left when they are known, which is that
of the context before. -/
lemma policy_of_runFrom_bindingNames {depth position : ℕ} {es : List Expr} {s t : State}
    {outcome : Except Failure (List String)}
    (run : (Expr.bindingNames (Expr.evaluate depth) position es).runFrom s = (outcome, t)) :
    t.context.policy = s.context.policy := by
  have runs : Course.growth.logic.Holds ()
      (fun _ => Expr.bindingNames (Expr.evaluate depth) position es) fun _ => True :=
    Course.growth.logic.bindingNames fun e _ => Expr.grows_evaluate depth e
  have grows := (runs s trivial).1
  rw [run] at grows
  exact Context.policy_eq_of_forget grows.alike

/-- The parameters of a lambda that `LAMBDA` makes fit together. -/
lemma exists_lambda_of_answers {keyword : String} {arguments : List Expr} {s t : State} {v : Value}
    (known : s.context.function? keyword = .ok (some .lambdaForm))
    (answers : (Expr.call keyword arguments).Answers s (.ok v) t) :
    ∃ parameters body, v = .lambda parameters body ∧ FitTogether s.context.policy parameters := by
  obtain ⟨depth, run⟩ := (Expr.answers_call_iff known arguments).1 answers
  obtain ⟨_, _, shape, run⟩ := exists_of_runFrom_bind run
  obtain ⟨-, rfl⟩ := Prod.mk.inj ((runFrom_ofExcept _ s).symm.trans shape)
  split at run
  · cases run
  · next body _ =>
    obtain ⟨names, m, checked, made⟩ := exists_of_runFrom_bind run
    cases made
    obtain ⟨names', m', named, checked⟩ := exists_of_runFrom_bind checked
    obtain ⟨_, _, here, checked⟩ := exists_of_runFrom_bind checked
    obtain ⟨rfl, rfl⟩ : m'.context = _ ∧ m' = _ := by simpa using here
    obtain ⟨_, _, valid, same⟩ := exists_of_runFrom_bind checked
    obtain rfl : names' = names := by simpa using congrArg Prod.fst same
    rw [runFrom_ofExcept, Prod.mk.injEq] at valid
    have fit := validateNames_eq_ok_iff_fitTogether.1 (eq_ok_of_mapError valid.1)
    rw [List.zipIdx_map_fst, policy_of_runFrom_bindingNames named] at fit
    exact ⟨_, _, rfl, fit⟩

end

/-! ### The first fault -/

/-- That the parameters of a lambda can be bound in every call where names compare in a given way. -/
structure KeepsFit (policy : CasePolicy) (parameters : List String) (body : Expr) : Prop where
  /-- A scope with values of the parameters can be opened wherever there is room for it. -/
  opens : ∀ (c : Context) (values : List Value), c.policy = policy →
    values.length = parameters.length →
    c.push (Function.parameterBindings parameters values) =
      if c.depth < maxScopeDepth then
        .ok (c.scope.bind (Function.parameterBindings parameters values))
      else .error (.evaluation .nestingTooDeep)
  /-- A call with as many values as parameters comes to what the body comes to in that scope, or
  fails for want of room. -/
  calls : ∀ (target : Expr) (arguments : List Expr) (values : List Value) (s m t u : State)
    (outcome : Except Fault Value), target.Answers s (.ok (.lambda parameters body)) m →
    Reaches (fun n => Expr.prepare (Expr.evaluate n) arguments) m (.ok values) t →
    values.length = parameters.length → t.context.policy = policy →
    ((Expr.invoke target arguments).Answers s outcome u ↔
      if t.context.depth < maxScopeDepth then
        ∃ u', body.Answers ⟨t.context.scope.bind (Function.parameterBindings parameters values),
          t.history⟩ outcome u' ∧ u = u'.within .leave
      else outcome = .error (.evaluation .nestingTooDeep) ∧ u = t)

lemma FitTogether.keepsFit {policy : CasePolicy} {parameters : List String}
    (fit : FitTogether policy parameters) (body : Expr) : KeepsFit policy parameters body where
  opens := by
    rintro c values rfl length
    exact Context.push_parameterBindings length fit
  calls := by
    rintro target arguments values s m t u outcome made prepared length rfl
    rw [Expr.answers_invoke_iff made prepared]
    simp only [Function.lambdaOnValues, if_pos length, reaches_inScope_iff,
      Context.push_parameterBindings length fit]
    split_ifs <;> rfl

/-- **The first name that cannot be bound is what the fault is about.** Names pass the check exactly
when each of them is made of plain letters, digits and underscores, without a digit in front, and no
two are equal. Otherwise the fault is about the first name that does not fit with those before it,
wherever the names come from: it tells the name, its position, and the first that holds of it of a
point in it, another strange spelling, and a name before it that is equal. So the parameters of
every lambda that `LAMBDA` makes can be bound in every call under the same policy: with as many
values as parameters, the call comes to its body or fails for want of room. -/
theorem validateNames_reports_first (policy : CasePolicy) (names : List (String × ℕ)) :
    (validateNames policy names = .ok () ↔ FitTogether policy (names.map Prod.fst)) ∧
    (∀ fault, validateNames policy names = .error fault ↔
      ∃ before name position after cause, names = before ++ (name, position) :: after ∧
        FitTogether policy (before.map Prod.fst) ∧
        FirstFault policy (before.map Prod.fst) name position cause ∧ fault = .naming cause) ∧
    ∀ (s t : State) (keyword : String) (arguments : List Expr) (v : Value),
      s.context.policy = policy → s.context.function? keyword = .ok (some .lambdaForm) →
      (Expr.call keyword arguments).Answers s (.ok v) t →
      ∃ parameters body, v = .lambda parameters body ∧ KeepsFit policy parameters body := by
  refine ⟨validateNames_eq_ok_iff_fitTogether, fun _ => validateNames_eq_error_iff, ?_⟩
  rintro s t keyword arguments v rfl known answers
  obtain ⟨parameters, body, rfl, fit⟩ := exists_lambda_of_answers known answers
  exact ⟨parameters, body, rfl, fit.keepsFit body⟩

/-- Of `a`, `B`, `1.b` and `b`, which `LET` has at odd positions, the third one is refused, for its
point. The parameters of `LAMBDA(a, B, a)` are not refused. -/
theorem validateNames_reports_first_point :
    let s : State := ⟨.root { config := { policy := .insensitive } }, []⟩
    let names := [("a", 1), ("B", 3), ("1.b", 5), ("b", 7)]
    let fault : Fault := .naming (.containsSeparator "1.b" 5)
    let arguments : List Expr := [.variable "a", .text "B", .variable "a"]
    (validateNames .insensitive names = .error fault ∧
      fault.message = "Name '1.b' at argument 5 must not contain '.'") ∧
    s.context.policy = .insensitive ∧ s.context.function? "LAMBDA" = .ok (some .lambdaForm) ∧
    (Expr.call "LAMBDA" arguments).Answers s (.ok (.lambda ["a", "B"] (.variable "a"))) s ∧
    KeepsFit .insensitive ["a", "B"] (.variable "a") := by
  intro s names fault arguments
  have pass : validateNames .insensitive [("a", 1), ("B", 3)] = .ok () := rfl
  have answers : (Expr.call "LAMBDA" arguments).Answers s
      (.ok (.lambda ["a", "B"] (.variable "a"))) s := ⟨2, rfl⟩
  obtain ⟨-, refused, lambdas⟩ := validateNames_reports_first .insensitive names
  have fit := (validateNames_reports_first .insensitive [("a", 1), ("B", 3)]).1.1 pass
  obtain ⟨_, _, same, keeps⟩ := lambdas s s "LAMBDA" arguments _ rfl rfl answers
  cases same
  have first : FirstFault .insensitive ["a", "B"] "1.b" 5 (.containsSeparator "1.b" 5) :=
    .separator (by decide)
  exact ⟨⟨(refused fault).2 ⟨_, _, _, [("b", 7)], _, rfl, fit, first, rfl⟩, rfl⟩, rfl, rfl, answers,
    keeps⟩

end Formula
