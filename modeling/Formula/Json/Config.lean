import Formula.Config
import Formula.Json.Syntax

/-!
# Configurations in JSON

A configuration is an object of settings or a list of them in order; what is left out has its
default. Members with other keys are passed over, whatever their values, but no setting may occur
twice.
-/

namespace Formula.Json.Syntax

/-- The values of named fields. An object gives them by name, each at most once; a list gives them
in order, from the first one on. -/
def fields? (names : List String) : Syntax → Option (List (Option Syntax))
  | .list items =>
    if items.length ≤ names.length then some ((List.range names.length).map (items[·]?))
    else none
  | .object members =>
    if members.all (·.1.isSome) then
      names.mapM fun name =>
        match members.filter (·.1 == some name) with
        | [] => some none
        | [m] => some (some m.2)
        | _ => none
    else none
  | _ => none

/-- A field that may be left out. -/
def field? {α : Type} (default : α) (read : Syntax → Option α) : Option Syntax → Option α
  | none => some default
  | some s => read s

/-- The case policy of a name. -/
def policyNamed? (name : String) : Option CasePolicy :=
  if name = "sensitive" then some .sensitive
  else if name = "insensitive" then some .insensitive
  else none

/-- A case policy: its name, or an object with the name as its one key and null as the value. -/
def policy? : Syntax → Option CasePolicy
  | .text (some name) => policyNamed? name
  | .object [(some name, .null)] => policyNamed? name
  | _ => none

/-- A character: a text of length one. -/
def char? : Syntax → Option Char
  | .text (some s) =>
    match s.toList with
    | [c] => some c
    | _ => none
  | _ => none

/-- The separators. -/
def separators? (s : Syntax) : Option Separators := do
  let standard : Separators := {}
  match ← s.fields? ["decimal", "group"] with
  | [decimal, group] => do
    let decimal ← field? standard.decimal char? decimal
    let group ← field? standard.group char? group
    some ⟨decimal, group⟩
  | _ => none

/-- The whole configuration. -/
def config? (s : Syntax) : Option Config := do
  let standard : Config := {}
  match ← s.fields? ["case_sensitivity", "separators"] with
  | [policy, separators] => do
    let policy ← field? standard.policy policy? policy
    let separators ← field? standard.separators separators? separators
    some ⟨policy, separators⟩
  | _ => none

end Formula.Json.Syntax
