import Formula.Config

/-!
# Globs

Patterns for whole texts: `?` stands for one character, `*` for any run of characters, and every
other character for one that is equal to it under a case policy. A pattern is cut at its stars. The
piece before the first star has to start the text and the piece behind the last one has to end it;
each piece between is looked for from left to right, and the first place where it fits is kept.
-/

namespace Formula

/-- A part of a pattern that takes one character. -/
inductive Glob.Part where
  | any
  | letter (c : Char)
  deriving DecidableEq

/-- A pattern and the way it compares letters. -/
structure Glob where
  /-- What stands before the first star. -/
  head : List Glob.Part
  /-- What stands behind each star, up to the next one. -/
  tails : List (List Glob.Part)
  /-- How letters compare. -/
  policy : CasePolicy
  deriving DecidableEq

namespace Glob

/-- The part that a character other than a star stands for. -/
def Part.ofChar (c : Char) : Part := if c = '?' then .any else .letter c

/-- A pattern cut at its stars. -/
def pieces : List Char → List Part × List (List Part)
  | [] => ([], [])
  | c :: cs =>
    let (head, tails) := pieces cs
    if c = '*' then ([], head :: tails) else (Part.ofChar c :: head, tails)

/-- The glob of a pattern text. -/
def ofText (text : String) (policy : CasePolicy) : Glob :=
  let (head, tails) := pieces text.toList
  ⟨head, tails, policy⟩

/-- Whether a part takes a character. -/
def Part.takes (policy : CasePolicy) : Part → Char → Bool
  | .any, _ => true
  | .letter p, c => policy.charsEqual p c

/-- What is left of a text that starts with characters for all the parts. -/
def strip? (policy : CasePolicy) : List Part → List Char → Option (List Char)
  | [], cs => some cs
  | part :: parts, c :: cs => if part.takes policy c then strip? policy parts cs else none
  | _ :: _, [] => none

/-- What is left of a text behind the first place where all the parts fit. -/
def seek? (policy : CasePolicy) (parts : List Part) : List Char → Option (List Char)
  | [] => strip? policy parts []
  | c :: cs =>
    match strip? policy parts (c :: cs) with
    | some rest => some rest
    | none => seek? policy parts cs

/-- Whether the pieces behind stars fit into a text, the last one at its end. -/
def floats (policy : CasePolicy) : List (List Part) → List Char → Bool
  | [], cs => cs.isEmpty
  | [parts], cs => strip? policy parts (cs.drop (cs.length - parts.length)) == some []
  | parts :: rest, cs =>
    match seek? policy parts cs with
    | some cs => floats policy rest cs
    | none => false

/-- Whether a text as a whole fits the pattern. -/
def accepts (glob : Glob) (text : String) : Bool :=
  match strip? glob.policy glob.head text.toList with
  | some cs => floats glob.policy glob.tails cs
  | none => false

end Glob

end Formula
