import Formula.CommandLine
import Formula.Json.Standard

/-!
# The program

Reads files and the clock, and writes the report of the command line. Without a report the program
breaks down.
-/

namespace Formula.CommandLine

/-- The fault that the operating system numbers so. A number may come negated, as a word of 32
bits. -/
def faultOfCode? (code : UInt32) : Option FileFault :=
  match if code < 0x80000000 then code.toNat else (0 - code).toNat with
  | 2 => some .missing
  | 13 => some .forbidden
  | 20 => some .notDirectory
  | 21 => some .isDirectory
  | 36 => some .nameTooLong
  | 40 => some .linkLoop
  | _ => none

/-- The fault behind an error of reading a file. -/
def faultOfError (e : IO.Error) : FileFault :=
  let fault? : Option FileFault :=
    match e with
    | .noFileOrDirectory _ code _ => faultOfCode? code
    | .permissionDenied _ code _ => faultOfCode? code
    | .inappropriateType _ code _ => faultOfCode? code
    | .invalidArgument _ code _ => faultOfCode? code
    | _ => none
  fault?.getD (.other (toString e))

/-- The text of a file, or why there is none. -/
def readFile (path : String) : IO (Except FileFault String) := do
  try
    let bytes ← IO.FS.readBinFile path
    match String.fromUTF8? bytes with
    | some text => return .ok text
    | none => return .error .notText
  catch e => return .error (faultOfError e)

/-- A number of microseconds in milliseconds with two places. -/
def milliseconds (microseconds : Nat) : String :=
  let hundredths := (microseconds + 5) / 10
  let places := toString (hundredths % 100)
  let padded := if places.length < 2 then "0" ++ places else places
  s!"{hundredths / 100}.{padded} ms"

/-- Evaluates and tells the time it took. -/
def clock (work : Unit → Except Failure Value) : IO (Except Failure Value × String) := do
  let start ← IO.monoNanosNow
  let outcome := work ()
  -- The outcome is needed before the clock is read again.
  let stop ← match outcome with
    | .ok _ => IO.monoNanosNow
    | .error _ => IO.monoNanosNow
  return (outcome, milliseconds ((stop - start) / 1000))

end Formula.CommandLine

/-- The program. -/
def main (arguments : List String) : IO UInt32 := do
  let report? ← Formula.CommandLine.run Formula.Json.Codec.standard Formula.CommandLine.readFile
    Formula.CommandLine.clock Formula.evaluationDepth arguments
  match report? with
  | none => throw (IO.userError "The formula recurses too deep")
  | some report =>
    IO.print report.stdout
    IO.eprint report.stderr
    return report.code.toUInt32
