import Formula.Aggregate
import Formula.Config

/-!
# Functions

What can be called by name: the two binding constructs, the aggregates, the aggregates over a
filtered range, and functions that the host adds. Each declares the parameters it takes for a given
number of arguments.
-/

namespace Formula

/-- How an argument is treated before a function sees it. -/
inductive ParameterKind where
  /-- A name to be bound; never evaluated as a reference. -/
  | name
  /-- Evaluated before the call. -/
  | value
  /-- Evaluated when it is first looked up. -/
  | lazy
  /-- Evaluated in the scope that the call opens. -/
  | body
  deriving DecidableEq

/-- A parameter of a function. -/
structure Parameter where
  name : String
  kind : ParameterKind
  deriving DecidableEq

/-- A record of one execution of a host function. -/
structure Execution where
  function : String
  pure : Bool
  arguments : List Value

/-- A function that the host adds. What it answers may depend on the executions before it. -/
structure HostFunction where
  name : String
  least : Nat := 0
  most? : Option Nat := none
  /-- Whether the answer may be kept in place of another execution. -/
  pure : Bool := true
  description? : Option String := none
  example? : Option String := none
  /-- The answer, from the executions so far (latest first) and the arguments. -/
  execute : List Execution → List Value → Except Fault Value

/-- A host function is sound when it has a name and its bounds leave room for a call. -/
def HostFunction.validate (f : HostFunction) : Except Fault Unit :=
  if f.name = "" then .error (.evaluation .emptyFunctionName)
  else if f.most?.any (· < f.least) then .error (.evaluation .contradictoryBounds)
  else .ok ()

/-- An aggregate under a name. -/
structure Reducer where
  name : String
  reduce : List Value → Except Fault Value

namespace Reducer

def sum : Reducer := ⟨"SUM", Aggregate.sum⟩

def count : Reducer := ⟨"COUNT", Aggregate.count⟩

def counta : Reducer := ⟨"COUNTA", Aggregate.present⟩

def average : Reducer := ⟨"AVERAGE", Aggregate.average⟩

def avg : Reducer := ⟨"AVG", Aggregate.average⟩

def max : Reducer := ⟨"MAX", Aggregate.max⟩

def min : Reducer := ⟨"MIN", Aggregate.min⟩

end Reducer

/-- An aggregate over the part of a range that meets a criterion. -/
structure RangeReducer where
  name : String
  reducer : Reducer
  /-- Whether a second range may supply the values to be reduced. -/
  valueRange : Bool := true

/-- What can be called by name. -/
inductive Function where
  /-- `LET(name, value, …, body)`. -/
  | letForm
  /-- `LAMBDA(name, …, body)`. -/
  | lambdaForm
  | reducer (r : Reducer)
  | rangeReducer (r : RangeReducer)
  | host (f : HostFunction)

namespace Function

/-- The name of a function as it spells itself. -/
def name : Function → String
  | .letForm => "LET"
  | .lambdaForm => "LAMBDA"
  | .reducer r => r.name
  | .rangeReducer r => r.name
  | .host f => f.name

/-- Whether a function declares that its executions have no effect. Only host functions may deny
it. -/
def isPure : Function → Bool
  | .host f => f.pure
  | _ => true

/-- Parameters `stem1, stem2, …` of one kind. -/
def numbered (stem : String) (kind : ParameterKind) (count : Nat) : List Parameter :=
  (List.range count).map fun i => ⟨stem ++ toString (i + 1), kind⟩

@[simp] theorem length_numbered (stem : String) (kind : ParameterKind) (count : Nat) :
    (numbered stem kind count).length = count := by
  simp [numbered]

/-- The parameters of `LET`: pairs of a name and a value, then the body. -/
def letShape (count : Nat) : Except Fault (List Parameter) :=
  if count = 0 then .error (.arity .letWithoutBody)
  else if count % 2 = 0 then .error (.arity .letWithoutFinal)
  else
    let pairs := (List.range (count / 2)).flatMap fun i =>
      [⟨"name" ++ toString (i + 1), .name⟩, ⟨"value" ++ toString (i + 1), .lazy⟩]
    .ok (pairs ++ [⟨"calculation", .body⟩])

/-- The parameters of `LAMBDA`: names, then the body. -/
def lambdaShape (count : Nat) : Except Fault (List Parameter) :=
  if count = 0 then .error (.arity .lambdaWithoutBody)
  else .ok (numbered "parameter" .name (count - 1) ++ [⟨"calculation", .body⟩])

/-- The parameters of an aggregate over a filtered range. -/
def rangeShape (r : RangeReducer) (count : Nat) : Except Fault (List Parameter) :=
  if count < 2 ∨ (if r.valueRange then 3 else 2) < count then
    .error (.arity (.rangeArguments r.name r.valueRange count))
  else
    .ok ([⟨"range", .value⟩, ⟨"criteria", .value⟩] ++
      if count = 3 then [⟨"value_range", .value⟩] else [])

/-- The parameters of a host function. -/
def hostShape (f : HostFunction) (count : Nat) : Except Fault (List Parameter) :=
  if count < f.least then .error (.arity (.tooFew f.name f.least count))
  else
    match f.most? with
    | some most =>
      if most < count then .error (.arity (.tooMany f.name most count))
      else .ok (numbered "arg" .value count)
    | none => .ok (numbered "arg" .value count)

/-- The parameters of a function for a number of arguments, or why it does not take that many. -/
def shape (f : Function) (count : Nat) : Except Fault (List Parameter) :=
  match f with
  | .letForm => letShape count
  | .lambdaForm => lambdaShape count
  | .reducer _ => .ok (numbered "value" .value count)
  | .rangeReducer r => rangeShape r count
  | .host f => hostShape f count

/-- The functions that are there without being added. -/
def builtins : List Function :=
  [.reducer .sum, .reducer .count, .reducer .counta, .reducer .average, .reducer .avg,
   .reducer .max, .reducer .min,
   .rangeReducer { name := "SUMIF", reducer := .sum },
   .rangeReducer { name := "COUNTIF", reducer := .counta, valueRange := false },
   .rangeReducer { name := "AVERAGEIF", reducer := .average },
   .rangeReducer { name := "AVGIF", reducer := .average },
   .rangeReducer { name := "MAXIF", reducer := .max },
   .rangeReducer { name := "MINIF", reducer := .min },
   .letForm, .lambdaForm]

end Function

end Formula
