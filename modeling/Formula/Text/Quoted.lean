import Formula.Text.Printable

/-!
# Quoted text

Text in double quotes in which every character can be seen: quotes and backslashes are escaped,
common controls have short escapes, and whatever does not show on its own is written by its code
point, as in `\u{301}` for a combining accent.
-/

namespace Formula.Text

/-- The digits of a number in base sixteen, in lower case. -/
def hexDigits (n : Nat) : String := String.ofList (Nat.toDigits 16 n)

/-- A character as it stands between double quotes. -/
def visible (c : Char) : String :=
  if c = '\x00' then "\\0"
  else if c = '\t' then "\\t"
  else if c = '\r' then "\\r"
  else if c = '\n' then "\\n"
  else if c = '\\' then "\\\\"
  else if c = '"' then "\\\""
  else if showsAlone c then c.toString
  else "\\u\x7b" ++ hexDigits c.toNat ++ "\x7d"

/-- A text between double quotes, with every character visible. -/
def quoted (s : String) : String := "\"" ++ String.join (s.toList.map visible) ++ "\""

end Formula.Text
