import Formula.Json
import Formula.Number.Style

/-!
# JSON written out

Data as text, one item a line, indented by two spaces a level. Lists and objects without items stay
on one line.
-/

namespace Formula.Json

/-- A code point with four digits in base sixteen. -/
def unicodeEscape (n : Nat) : String :=
  let ds := Nat.toDigits 16 n
  "\\u" ++ String.ofList (List.replicate (4 - ds.length) '0' ++ ds)

/-- A character as it stands in a JSON text. -/
def escaped (c : Char) : String :=
  if c = '"' then "\\\""
  else if c = '\\' then "\\\\"
  else if c = '\x08' then "\\b"
  else if c = '\x0c' then "\\f"
  else if c = '\n' then "\\n"
  else if c = '\x0d' then "\\r"
  else if c = '\t' then "\\t"
  else if c.toNat < 0x20 then unicodeEscape c.toNat
  else c.toString

/-- A text between quotes. -/
def quotedText (s : String) : String := "\"" ++ String.join (s.toList.map escaped) ++ "\""

/-- A number. -/
def Number.write : Number → String
  | .whole n => toString n
  | .double x => Formula.Number.write .json x

/-- The start of a line at a level. -/
def indentation (level : Nat) : String := String.ofList (List.replicate (2 * level) ' ')

/-- Items one a line between brackets. -/
def block (level : Nat) (opening closing : String) : List String → String
  | [] => opening ++ closing
  | items =>
    opening ++ "\n" ++
      String.intercalate ",\n" (items.map (indentation (level + 1) ++ ·)) ++
      "\n" ++ indentation level ++ closing

mutual

/-- Data written out at a level. -/
def pretty (level : Nat) : Json → String
  | .null => "null"
  | .boolean b => if b then "true" else "false"
  | .number n => n.write
  | .text s => quotedText s
  | .list items => block level "[" "]" (prettyItems (level + 1) items)
  | .object members => block level "\x7b" "\x7d" (prettyMembers (level + 1) members)
termination_by structural j => j

/-- The items of a list written out at a level. -/
def prettyItems (level : Nat) : List Json → List String
  | [] => []
  | j :: js => pretty level j :: prettyItems level js
termination_by structural js => js

/-- The members of an object written out at a level. -/
def prettyMembers (level : Nat) : List (String × Json) → List String
  | [] => []
  | m :: ms => prettyMember level m :: prettyMembers level ms
termination_by structural ms => ms

/-- One member written out at a level. -/
def prettyMember (level : Nat) : String × Json → String
  | (key, j) => quotedText key ++ ": " ++ pretty level j
termination_by structural m => m

end

end Formula.Json
