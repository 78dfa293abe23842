/-!
# JSON texts

What a JSON text says, before it is known whether everything in it can be represented: numerals by
their digits, and texts that may hold half of a surrogate pair. Members of objects stand in the order
of the text, repeated keys included.
-/

namespace Formula.Json

/-- A numeral by its digits. -/
structure Numeral where
  negative : Bool
  whole : List Char
  /-- The digits behind the point, if there is one. -/
  fraction : List Char
  /-- Whether the exponent is negative, and its digits. -/
  exponent? : Option (Bool × List Char)

/-- What a JSON text says. -/
inductive Syntax where
  | null
  | boolean (value : Bool)
  | number (numeral : Numeral)
  /-- A text, or `none` if an escape in it is half of a surrogate pair on its own. -/
  | text (content : Option String)
  | list (items : List Syntax)
  | object (members : List (Option String × Syntax))

/-! ### Reading

Each function reads from the front of a text and answers what is left of it, or nothing if the text
is malformed. -/

/-- The text behind blanks. -/
def skipBlanks (cs : List Char) : List Char :=
  cs.dropWhile fun c => c == ' ' || c == '\t' || c == '\n' || c == '\r'

/-- The value of a digit in base sixteen. -/
def hexDigit? (c : Char) : Option Nat :=
  if c.isDigit then some (c.toNat - '0'.toNat)
  else if 'a' ≤ c ∧ c ≤ 'f' then some (c.toNat - 'a'.toNat + 10)
  else if 'A' ≤ c ∧ c ≤ 'F' then some (c.toNat - 'A'.toNat + 10)
  else none

/-- The code unit that four digits in base sixteen stand for. -/
def codeUnit? (a b c d : Char) : Option Nat := do
  let a ← hexDigit? a
  let b ← hexDigit? b
  let c ← hexDigit? c
  let d ← hexDigit? d
  some (((a * 16 + b) * 16 + c) * 16 + d)

/-- The character of a short escape. -/
def shortEscape? (c : Char) : Option Char :=
  if c = '"' ∨ c = '\\' ∨ c = '/' then some c
  else if c = 'b' then some '\x08'
  else if c = 'f' then some '\x0c'
  else if c = 'n' then some '\n'
  else if c = 'r' then some '\x0d'
  else if c = 't' then some '\t'
  else none

/-- The code points of a text literal up to its closing quote. Escapes of code units are not yet
joined to pairs. -/
def literal? : List Char → Option (List Nat × List Char)
  | [] => none
  | '"' :: cs => some ([], cs)
  | '\\' :: 'u' :: a :: b :: c :: d :: cs => do
    let unit ← codeUnit? a b c d
    let (units, rest) ← literal? cs
    some (unit :: units, rest)
  | '\\' :: e :: cs => do
    let c ← shortEscape? e
    let (units, rest) ← literal? cs
    some (c.toNat :: units, rest)
  | c :: cs =>
    if c.toNat < 0x20 then none
    else do
      let (units, rest) ← literal? cs
      some (c.toNat :: units, rest)

/-- Joins surrogate pairs; nothing if a half stands on its own. -/
def joinPairs? : List Nat → Option (List Char)
  | [] => some []
  | [u] => if 0xD800 ≤ u ∧ u < 0xE000 then none else some [Char.ofNat u]
  | u :: v :: rest =>
    if 0xD800 ≤ u ∧ u < 0xDC00 ∧ 0xDC00 ≤ v ∧ v < 0xE000 then
      (joinPairs? rest).map (Char.ofNat ((u - 0xD800) * 0x400 + (v - 0xDC00) + 0x10000) :: ·)
    else if 0xD800 ≤ u ∧ u < 0xE000 then none
    else (joinPairs? (v :: rest)).map (Char.ofNat u :: ·)

/-- A text from behind its opening quote. -/
def text? (cs : List Char) : Option (Option String × List Char) := do
  let (units, rest) ← literal? cs
  some ((joinPairs? units).map String.ofList, rest)

/-- The digits before the point: a zero alone, or digits that do not start with one. -/
def whole? (cs : List Char) : Option (List Char × List Char) :=
  match cs.span Char.isDigit with
  | (['0'], rest) => some (['0'], rest)
  | (c :: ds, rest) => if c = '0' then none else some (c :: ds, rest)
  | ([], _) => none

/-- The point and the digits behind it, at least one, or neither. -/
def fraction? (cs : List Char) : Option (List Char × List Char) :=
  match cs with
  | '.' :: cs =>
    match cs.span Char.isDigit with
    | ([], _) => none
    | (ds, rest) => some (ds, rest)
  | cs => some ([], cs)

/-- The exponent, if there is one; it has at least one digit. -/
def exponent? (cs : List Char) : Option (Option (Bool × List Char) × List Char) :=
  match cs with
  | c :: cs =>
    if c = 'e' ∨ c = 'E' then
      let (negative, cs) :=
        match cs with
        | '-' :: cs => (true, cs)
        | '+' :: cs => (false, cs)
        | cs => (false, cs)
      match cs.span Char.isDigit with
      | ([], _) => none
      | (ds, rest) => some (some (negative, ds), rest)
    else some (none, c :: cs)
  | [] => some (none, [])

/-- A numeral. -/
def numeral? (cs : List Char) : Option (Numeral × List Char) := do
  let (negative, cs) :=
    match cs with
    | '-' :: cs => (true, cs)
    | cs => (false, cs)
  let (whole, cs) ← whole? cs
  let (fraction, cs) ← fraction? cs
  let (exponent, cs) ← exponent? cs
  some (⟨negative, whole, fraction, exponent⟩, cs)

/-- The text behind a word that it starts with. -/
def word? (word : List Char) (cs : List Char) : Option (List Char) :=
  if word.isPrefixOf cs then some (cs.drop word.length) else none

/-- The items of a list behind its opening bracket and one or more items, up to its end. -/
def items? (value : List Char → Option (Syntax × List Char)) :
    (count : Nat) → List Char → Option (List Syntax × List Char)
  | 0, _ => none
  | count + 1, cs => do
    let (item, cs) ← value cs
    match skipBlanks cs with
    | ',' :: cs => do
      let (items, cs) ← items? value count cs
      some (item :: items, cs)
    | ']' :: cs => some ([item], cs)
    | _ => none

/-- The members of an object that has at least one, up to its end. -/
def members? (value : List Char → Option (Syntax × List Char)) :
    (count : Nat) → List Char → Option (List (Option String × Syntax) × List Char)
  | 0, _ => none
  | count + 1, cs =>
    match skipBlanks cs with
    | '"' :: cs => do
      let (key, cs) ← text? cs
      match skipBlanks cs with
      | ':' :: cs => do
        let (member, cs) ← value cs
        match skipBlanks cs with
        | ',' :: cs => do
          let (members, cs) ← members? value count cs
          some ((key, member) :: members, cs)
        | '\x7d' :: cs => some ([(key, member)], cs)
        | _ => none
      | _ => none
    | _ => none

/-- A value in which brackets are nested less than `depth` deep. -/
def value? : (depth : Nat) → List Char → Option (Syntax × List Char)
  | 0, _ => none
  | depth + 1, cs =>
    match skipBlanks cs with
    | [] => none
    | '"' :: cs => do
      let (content, cs) ← text? cs
      some (.text content, cs)
    | '[' :: cs =>
      match skipBlanks cs with
      | ']' :: cs => some (.list [], cs)
      | cs => do
        let (items, cs) ← items? (value? depth) (cs.length + 1) cs
        some (.list items, cs)
    | '\x7b' :: cs =>
      match skipBlanks cs with
      | '\x7d' :: cs => some (.object [], cs)
      | cs => do
        let (members, cs) ← members? (value? depth) (cs.length + 1) cs
        some (.object members, cs)
    | c :: cs =>
      if c = 'n' then (word? ['u', 'l', 'l'] cs).map (.null, ·)
      else if c = 't' then (word? ['r', 'u', 'e'] cs).map (.boolean true, ·)
      else if c = 'f' then (word? ['a', 'l', 's', 'e'] cs).map (.boolean false, ·)
      else (numeral? (c :: cs)).map fun (n, cs) => (.number n, cs)

/-- What a whole text says, with nothing but blanks around it. -/
def Syntax.ofText? (text : String) : Option Syntax := do
  let cs := text.toList
  let (json, rest) ← value? (cs.length + 1) cs
  if skipBlanks rest = [] then some json else none

end Formula.Json
