import Formula.Text.CaseTable

/-!
# Letter case

Full case maps of single characters. Lower-casing looks at one character at a time, so it knows no
final sigma; both maps may give several characters (`İ` becomes `i̇`, `ß` becomes `SS`).
-/

namespace Formula.Text

/-- The code point that a table of runs gives for `n`, or `n` itself. -/
def mapRuns (runs : List CaseRun) (n : Nat) : Nat := (runs.findSome? (·.map? n)).getD n

/-- The lower-case form of a character. -/
def lower (c : Char) : List Char :=
  if c.toNat < 0x80 then [c.toLower]
  else if c.toNat = 0x130 then ['i', '\u0307']
  else [Char.ofNat (mapRuns lowerRuns c.toNat)]

/-- The upper-case form of a character. -/
def upper (c : Char) : List Char :=
  if c.toNat < 0x80 then [c.toUpper]
  else match upperSequences.lookup c.toNat with
    | some ns => ns.map Char.ofNat
    | none => [Char.ofNat (mapRuns upperRuns c.toNat)]

/-- A text in lower case, character by character. -/
def lowerText (cs : List Char) : List Char := cs.flatMap lower

/-- A text in upper case. -/
def upperText (s : String) : String := String.ofList (s.toList.flatMap upper)

end Formula.Text
