import Formula.Session
import Formula.Value.Inspect

/-!
# The command line

The first argument is the formula; the others are read from left to right and set variables, the
configuration and the form of the output. The first faulty argument ends the run before anything is
evaluated. JSON is read and written by a codec.
-/

namespace Formula.CommandLine

/-- What a run leaves: an exit code and what was written. -/
structure Report where
  code : Nat
  stdout : String
  stderr : String
  deriving DecidableEq

/-- What the arguments behind the formula ask for. -/
structure Options where
  vars : Variables := []
  config : Config := {}
  /-- Whether the output is JSON. -/
  outputJson : Bool := false

/-- The help text by lines. -/
def usageLines : List String :=
  ["Usage: formlet \"expression\" [options] [var=value ...]",
   "",
   "Options:",
   "  --output-json    Output result in JSON format with type and timing",
   "  --json JSON      Use JSON string for variable values",
   "  --config FILE    Load engine configuration (case sensitivity, separators)",
   "",
   "Examples:",
   "  formlet \"=LET(x, 23, x + 100)\"",
   "  formlet \"=SUMIF(:sales, \\\">1000\\\")\" --json '\x7b\"sales\": [500, 1500, 2500]\x7d'",
   "  formlet \"=LAMBDA(a, b, a * b)(:price, :qty)\" price=19.99 qty=3 --output-json"]

/-- The help text. -/
def usage : String := String.join (usageLines.map (· ++ "\n"))

/-- The report of a run that ends with a complaint. -/
def complaint (code : Nat) (message : String) : Report := ⟨code, "", s!"Error: {message}\n"⟩

/-! ### Values of variables -/

/-- The content of a text in quotes of either kind. -/
def unquoted? : List Char → Option (List Char)
  | [] => none
  | q :: cs =>
    if (q = '"' ∨ q = '\'') ∧ cs.getLast? = some q then some cs.dropLast else none

/-- The content of a text in square brackets. -/
def unbracketed? : List Char → Option (List Char)
  | '[' :: cs => if cs.getLast? = some ']' then some cs.dropLast else none
  | _ => none

/-- The value that a text on the command line stands for: a text in quotes, a constant, a list in
brackets of at most `depth` levels, a number, or else the text itself. -/
def readValue : (depth : Nat) → List Char → Value
  | 0, cs => .text (String.ofList cs)
  | depth + 1, cs =>
    match unquoted? cs with
    | some content => .text (String.ofList content)
    | none =>
      let word := String.ofList (Text.lowerText cs)
      if word = "true" then .boolean true
      else if word = "false" then .boolean false
      else if word = "null" then .null
      else
        match unbracketed? cs with
        | some content =>
          if Text.trim content = [] then .array []
          else .array ((content.splitOn ',').map fun part => readValue depth (Text.trim part))
        | none =>
          match Number.read? cs with
          | some x => .number x
          | none => .text (String.ofList cs)

/-- The value that a text on the command line stands for. -/
def parseValue (text : String) : Value := readValue (text.length + 1) text.toList

/-- A name and the value assigned to it, split at the first equals sign. -/
def assignment? (argument : String) : Option (String × Value) :=
  match argument.toList.span (· != '=') with
  | (name, _ :: value) => some (String.ofList name, parseValue (String.ofList value))
  | (_, []) => none

/-! ### Arguments -/

/-- The configuration that a file gives, from what reading the file gave. -/
def configFrom (codec : Json.Codec) (path : String) :
    Except FileFault String → Except Fault Config
  | .error cause => .error (.config (.unreadable path cause))
  | .ok text => Config.ofJson codec text

/-- Reads the arguments behind the formula from left to right; fails with the complaint about the
first faulty one. A flag takes the next argument as its operand, whatever it looks like. -/
def scan {m : Type → Type} [Monad m] (codec : Json.Codec)
    (readFile : String → m (Except FileFault String)) :
    Options → List String → m (Except String Options)
  | options, [] => pure (.ok options)
  | options, argument :: rest =>
    if argument = "--json" then
      match rest with
      | [] => pure (.error "--json flag requires a JSON string argument")
      | text :: rest =>
        match options.vars.setJson codec text with
        | .error fault => pure (.error fault.message)
        | .ok vars => scan codec readFile { options with vars } rest
    else if argument = "--config" then
      match rest with
      | [] => pure (.error "--config flag requires a file path")
      | path :: rest => do
        match configFrom codec path (← readFile path) with
        | .error fault => return .error fault.message
        | .ok config => scan codec readFile { options with config } rest
    else if argument = "--output-json" then
      scan codec readFile { options with outputJson := true } rest
    else
      match assignment? argument with
      | some (name, value) =>
        scan codec readFile { options with vars := options.vars.set name value } rest
      | none =>
        pure (.error s!"Invalid variable assignment: '{argument}'. Use format: var=value")

/-! ### Output -/

/-- A value with its kind and the time it took. -/
def timed (elapsed : String) (v : Value) : Json :=
  .object [("execution_time", .text elapsed), ("result", v.toJson), ("type", .text v.kind.name)]

/-- A value as it is printed. -/
def shown (codec : Json.Codec) (outputJson : Bool) (elapsed : String) (v : Value) : String :=
  if outputJson then (codec.encode (timed elapsed v)).getD "\x7b\x7d" else v.inspect

/-- The report of an evaluation. There is none of an evaluation that was not followed to its end. -/
def report? (codec : Json.Codec) (outputJson : Bool) (elapsed : String) :
    Except Failure Value → Option Report
  | .ok v => some ⟨0, shown codec outputJson elapsed v ++ "\n", ""⟩
  | .error (.fault fault) => some (complaint 2 fault.message)
  | .error .exhausted => none

/-- The value that a formula has under options. -/
def Options.evaluate (options : Options) (formula : String) (depth : Nat) : Except Failure Value :=
  Root.evaluate { vars := options.vars, config := options.config } formula depth

/-- A whole run over given arguments. `clock` evaluates what it is given and tells the time it
took. There is no report if the formula recurses deeper than `depth` levels. -/
def run {m : Type → Type} [Monad m] (codec : Json.Codec)
    (readFile : String → m (Except FileFault String))
    (clock : (Unit → Except Failure Value) → m (Except Failure Value × String)) (depth : Nat) :
    List String → m (Option Report)
  | [] => pure (some ⟨1, "", usage⟩)
  | formula :: arguments => do
    match ← scan codec readFile {} arguments with
    | .error message => return some (complaint 1 message)
    | .ok options => do
      let (outcome, elapsed) ← clock fun _ => options.evaluate formula depth
      return report? codec options.outputJson elapsed outcome

end Formula.CommandLine
