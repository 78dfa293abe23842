/-!
# Lists written out

The one way this library writes a list of texts on a line.
-/

namespace Formula.Text

/-- The texts one after the other, with a comma and a space between neighbours. -/
def joined : List String → String
  | [] => ""
  | [s] => s
  | s :: t :: rest => s ++ ", " ++ joined (t :: rest)

/-- The texts as a list in square brackets. -/
def bracketed (items : List String) : String := "[" ++ joined items ++ "]"

end Formula.Text
