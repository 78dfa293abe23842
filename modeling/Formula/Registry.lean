import Formula.Entries
import Formula.Function
import Formula.Text.Case

/-!
# The function registry

Functions by name, whatever the letter case: the key of a name is its upper-case form. The entries
are kept in the order of their keys.
-/

namespace Formula

/-- Functions by the upper-case form of their names, in the order of those keys. -/
structure Registry where
  entries : List (String × Function) := []
  ordered : entries.Pairwise (·.1 < ·.1) := by exact .nil

namespace Registry

/-- The key of a name. -/
def key (name : String) : String := Text.upperText name

/-- Adds a function under a key, in place of the one that is there. -/
def insert (r : Registry) (key : String) (f : Function) : Registry :=
  ⟨Entries.insert key f r.entries, Entries.pairwise_insert r.ordered⟩

/-- The registry without functions. -/
def empty : Registry := {}

/-- The function under a name. -/
def get? (r : Registry) (name : String) : Option Function := r.entries.lookup (key name)

/-- Whether there is a function under a name. -/
def contains (r : Registry) (name : String) : Bool := (r.get? name).isSome

/-- Adds a function under its own name, in place of one with the same key. -/
def register (r : Registry) (f : Function) : Except Fault Registry :=
  if key f.name = "" then .error (.evaluation .emptyFunctionName)
  else .ok (r.insert (key f.name) f)

/-- Adds a host function, provided it is sound. -/
def registerHost (r : Registry) (f : HostFunction) : Except Fault Registry := do
  f.validate
  r.register (.host f)

/-- Removes the function under a name. -/
def unregister (r : Registry) (name : String) : Registry :=
  ⟨Entries.erase (key name) r.entries, r.ordered.filter _⟩

/-- The keys of all functions in order. -/
def names (r : Registry) : List String := r.entries.map Prod.fst

/-- How many functions there are. -/
def size (r : Registry) : Nat := r.entries.length

/-- The registry with every function that is there without being added. -/
def registerBuiltins (r : Registry) : Registry :=
  Function.builtins.foldl (fun r f => r.insert (key f.name) f) r

/-- The registry of the built-in functions. -/
def builtins : Registry := empty.registerBuiltins

/-! ### What is found after a change -/

/-- A function that was added is found under every spelling of its key, and nothing else changes. -/
theorem get?_insert (r : Registry) (added : String) (f : Function) (name : String) :
    (r.insert added f).get? name = if key name = added then some f else r.get? name := by
  simp [get?, insert, Entries.lookup_insert]

/-- A function that was removed is not found under any spelling, and nothing else changes. -/
theorem get?_unregister (r : Registry) (removed name : String) :
    (r.unregister removed).get? name = if key name = key removed then none else r.get? name := by
  simp [get?, unregister, Entries.lookup_erase]

end Registry

end Formula
