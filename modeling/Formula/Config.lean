import Formula.Fault
import Formula.Text.Case

/-!
# Configuration

How letters compare, and which characters separate the parts of a number.
-/

namespace Formula

/-- How names and patterns compare letters. -/
inductive CasePolicy where
  | sensitive
  | insensitive
  deriving DecidableEq

namespace CasePolicy

/-- Whether two names are the same. Without regard to case, they are when their lower-case forms
agree character by character. -/
def namesEqual (policy : CasePolicy) (a b : String) : Bool :=
  match policy with
  | .sensitive => a == b
  | .insensitive => Text.lowerText a.toList == Text.lowerText b.toList

/-- Whether two characters are the same. -/
def charsEqual (policy : CasePolicy) (a b : Char) : Bool :=
  match policy with
  | .sensitive => a == b
  | .insensitive => a == b || Text.lower a == Text.lower b

end CasePolicy

/-- The characters that separate the parts of a number. -/
structure Separators where
  /-- Between the whole part and the fraction. -/
  decimal : Char := '.'
  /-- Between groups of digits. -/
  group : Char := ','
  deriving DecidableEq

/-- The settings of an evaluation. -/
structure Config where
  policy : CasePolicy := .sensitive
  separators : Separators := {}
  deriving DecidableEq

/-- A configuration is sound when its separators differ. -/
def Config.validate (config : Config) : Except Fault Unit :=
  if config.separators.decimal = config.separators.group then
    .error (.config (.equalSeparators config.separators.decimal))
  else .ok ()

end Formula
