import Formula.Config

/-!
# Names that can be bound

A bound name is an identifier of seven-bit letters, digits and underscores, and no two names of one
scope are equal under its case policy.
-/

namespace Formula

/-- Whether a text is an identifier. -/
def isIdentifier : List Char → Bool
  | [] => false
  | c :: cs => (c.isAlpha || c == '_') && cs.all fun c => c.isAlphanum || c == '_'

/-- Checks names against those `seen` before and against each other. The first fault of the first
faulty name counts. -/
def checkNames (policy : CasePolicy) : (seen : List String) → List (String × Nat) →
    Except Fault Unit
  | _, [] => .ok ()
  | seen, (name, position) :: rest =>
    if nameSeparator ∈ name.toList then .error (.naming (.containsSeparator name position))
    else if !isIdentifier name.toList then .error (.naming (.notIdentifier name position))
    else if seen.any (policy.namesEqual · name) then .error (.naming (.duplicate name position))
    else checkNames policy (name :: seen) rest

/-- Checks the names of one scope, each with the position of the argument it comes from. -/
def validateNames (policy : CasePolicy) (names : List (String × Nat)) : Except Fault Unit :=
  checkNames policy [] names

end Formula
