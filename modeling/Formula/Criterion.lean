import Formula.Evaluation
import Formula.Glob
import Formula.Operator

/-!
# Criteria

What the filtering functions ask of a candidate. An operand that is no text asks for a value equal
to it; a text that starts with a comparison sign asks how the candidate compares with the expression
behind the sign; any other text is a glob for the candidate's text.
-/

namespace Formula

/-- A condition on candidates. -/
inductive Criterion where
  /-- The candidate equals a value. -/
  | equals (value : Value)
  /-- The candidate compares in this way with the value of an expression. -/
  | compare (op : BinaryOp) (right : Expr)
  /-- The candidate's text fits a pattern. -/
  | glob (pattern : Glob)

namespace Criterion

/-- The signs that start a comparison. A sign comes before every shorter one that it starts with. -/
def signs : List (List Char × BinaryOp) :=
  [(['<', '>'], .ne), (['<', '='], .le), (['<'], .lt), (['>', '='], .ge), (['>'], .gt),
   (['='], .eq)]

/-- A text split behind the comparison sign it starts with. -/
def splitSign? (cs : List Char) : Option (BinaryOp × List Char) :=
  (signs.find? (·.1.isPrefixOf cs)).map fun s => (s.2, cs.drop s.1.length)

/-- The condition that an operand stands for. -/
def compile (context : Context) : Value → Except Fault Criterion
  | .text s =>
    match splitSign? s.toList with
    | some (op, rest) => do .ok (.compare op (← context.parse (String.ofList rest)))
    | none => .ok (.glob (.ofText s context.policy))
  | v => .ok (.equals v)

/-- A text with the decimal point replaced. -/
def localized (decimal : Char) (s : String) : String :=
  String.ofList (s.toList.map fun c => if c = '.' then decimal else c)

mutual

/-- The text of a candidate for a glob, in which numbers show the decimal separator. -/
def candidateText (context : Context) : Value → Except Fault String
  | .array items => do .ok (Text.bracketed (← candidateTexts context items))
  | .number x =>
    match context.convert (.number x) .string with
    | .ok (.text s) => .ok (localized context.separators.decimal s)
    | .ok v => .error (.evaluation (.unrenderable v.kind))
    | .error fault => .error fault
  | v =>
    match context.convert v .string with
    | .ok (.text s) => .ok s
    | .ok v => .error (.evaluation (.unrenderable v.kind))
    | .error fault => .error fault
termination_by structural v => v

/-- The texts of the candidates of a list. -/
def candidateTexts (context : Context) : List Value → Except Fault (List String)
  | [] => .ok []
  | v :: vs => do
    let text ← candidateText context v
    let texts ← candidateTexts context vs
    .ok (text :: texts)
termination_by structural vs => vs

end

/-- The outcome of a comparison as a decision. -/
def decision (outcome : Value) : Evaluation Bool := do
  match ← Evaluation.ofExcept ((← Evaluation.context).convert outcome .boolean) with
  | .boolean b => pure b
  | v => Evaluation.fail (.evaluation (.criteriaOutcome v.kind))

/-- Whether a candidate meets the condition. The expression of a comparison is evaluated anew for
each candidate. -/
def test (evaluate : Evaluator) (criterion : Criterion) (candidate : Value) :
    Evaluation Bool :=
  match criterion with
  | .equals v => do decision (← Evaluation.ofExcept (BinaryOp.eq.apply candidate v))
  | .compare op right => do
    let right ← evaluate right
    decision (← Evaluation.ofExcept (op.apply candidate right))
  | .glob pattern => do
    return pattern.accepts (← Evaluation.ofExcept (candidateText (← Evaluation.context) candidate))

/-- The values paired with the candidates that meet the condition, in order. -/
def select (evaluate : Evaluator) (criterion : Criterion) :
    List (Value × Value) → Evaluation (List Value)
  | [] => pure []
  | (candidate, value) :: rest => do
    if ← criterion.test evaluate candidate then
      return value :: (← select evaluate criterion rest)
    else select evaluate criterion rest

/-- Reduces the candidates that meet the condition of an operand, or the values paired with them.
Of two lists of different lengths the longer one is cut. -/
def reduceMatching (evaluate : Evaluator) (reduce : List Value → Evaluation Value)
    (candidates : List Value) (values? : Option (List Value)) (operand : Value) :
    Evaluation Value := do
  let criterion ← Evaluation.ofExcept (compile (← Evaluation.context) operand)
  let kept ← criterion.select evaluate (candidates.zip (values?.getD candidates))
  reduce kept

end Criterion

end Formula
