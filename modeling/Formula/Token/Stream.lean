import Formula.Fault
import Formula.Number.Numeral

/-!
# The tokens of a text

A text is read into a stream of tokens, each with the bytes it covers. The stream ends at the end of
the text or breaks at the first place where no token starts; what stands before a break is still
there to be read.
-/

namespace Formula

/-- The tokens of a text in order, each from byte `start` up to byte `stop`. -/
inductive Tokens where
  | done (position : Nat)
  | broken (cause : LexicalFault) (position : Nat)
  | cons (token : Token) (start stop : Nat) (rest : Tokens)

namespace Tokens

/-- How many bytes a text takes. -/
def width (cs : List Char) : Nat := (cs.map Char.utf8Size).foldl (· + ·) 0

/-- The characters that separate tokens. -/
def isSpace (c : Char) : Bool := c == ' ' || c == '\t' || c == '\n' || c == '\r'

/-- The characters that start an identifier. -/
def isWordStart (c : Char) : Bool := c.isAlpha || c == '_'

/-- The characters of an identifier. -/
def isWordPart (c : Char) : Bool := c.isAlphanum || c == '_'

/-- What one look at a text finds. -/
inductive Step where
  | done (position : Nat)
  | broken (cause : LexicalFault) (position : Nat)
  | found (token : Token) (start stop : Nat) (rest : List Char)

/-- The tokens of fixed spelling. A spelling comes before every shorter one that it starts with. -/
def symbols : List (List Char × Token) :=
  [(['.', '.', '.'], .ellipsis), (['+'], .plus), (['-'], .minus), (['*'], .star), (['/'], .slash),
   (['%'], .percent), (['^'], .caret), (['!', '='], .notEqual), (['!'], .bang),
   (['('], .openParen), ([')'], .closeParen), (['['], .openBracket), ([']'], .closeBracket),
   ([','], .comma), ([':', ':'], .doubleColon), ([':'], .colon), (['>', '='], .greaterEqual),
   (['>'], .greater), (['<', '='], .lessEqual), (['<', '>'], .notEqual), (['<'], .less),
   (['=', '='], .equal), (['='], .equal), (['&', '&'], .and), (['|', '|'], .or)]

/-- Why no token starts with a character. -/
def strange (c : Char) : LexicalFault :=
  if c = '.' then .loneDot
  else if c = '&' then .loneAmpersand
  else if c = '|' then .loneBar
  else .strangeCharacter

/-- A numeral at the start of a text: whole digits, then a point and more digits unless a second
point follows, which belongs to `...`. Answers the digits on both sides, the length and the rest. -/
def numeral (cs : List Char) : List Char × List Char × Nat × List Char :=
  let (whole, rest) := cs.span Char.isDigit
  match rest with
  | '.' :: '.' :: _ => (whole, [], whole.length, rest)
  | '.' :: rest =>
    let (fraction, rest) := rest.span Char.isDigit
    (whole, fraction, whole.length + 1 + fraction.length, rest)
  | _ => (whole, [], whole.length, rest)

/-- Whether a text starts with a numeral. -/
def startsNumeral : List Char → Bool
  | '.' :: c :: _ => c.isDigit
  | c :: _ => c.isDigit
  | [] => Bool.false

/-- An identifier or, in any letter case, one of the words for the constants. -/
def word (cs : List Char) : Token :=
  let spelling := cs.map Char.toUpper
  if spelling = ['T', 'R', 'U', 'E'] then .true
  else if spelling = ['F', 'A', 'L', 'S', 'E'] then .false
  else if spelling = ['N', 'U', 'L', 'L'] then .null
  else .identifier (String.ofList cs)

/-- The character that an escape stands for. -/
def unescape (c : Char) : Char := if c = 'n' then '\n' else if c = 't' then '\t' else c

/-- The content of a text literal, from behind its opening quote at `position` up to the closing
one, with the place behind that and what follows. -/
def literal (quote : Char) : (position : Nat) → List Char →
    Except (LexicalFault × Nat) (List Char × Nat × List Char)
  | position, [] => .error (.unfinishedText, position)
  | position, c :: cs =>
    if c = quote then .ok ([], position + c.utf8Size, cs)
    else if c = '\\' then
      match cs with
      | [] => .error (.unfinishedEscape, position + c.utf8Size)
      | e :: cs => do
        let (content, stop, rest) ← literal quote (position + c.utf8Size + e.utf8Size) cs
        .ok (unescape e :: content, stop, rest)
    else do
      let (content, stop, rest) ← literal quote (position + c.utf8Size) cs
      .ok (c :: content, stop, rest)

/-- The token at the start of a text that does not start with a space. -/
def tokenAt (start : Nat) : List Char → Step
  | [] => .done start
  | c :: cs =>
    if startsNumeral (c :: cs) then
      let (whole, fraction, length, rest) := numeral (c :: cs)
      .found (.number (Number.ofDecimal whole fraction 0)) start (start + length) rest
    else if isWordStart c then
      let (letters, rest) := (c :: cs).span isWordPart
      .found (word letters) start (start + letters.length) rest
    else if c = '"' ∨ c = '\'' then
      match literal c (start + 1) cs with
      | .error (cause, position) => .broken cause position
      | .ok (content, stop, rest) => .found (.text (String.ofList content)) start stop rest
    else
      match symbols.find? (·.1.isPrefixOf (c :: cs)) with
      | some (spelling, token) =>
        .found token start (start + spelling.length) ((c :: cs).drop spelling.length)
      | none => .broken (strange c) start

/-- The first token of a text that stands at `position`. -/
def next (position : Nat) (cs : List Char) : Step :=
  let (spaces, cs) := cs.span isSpace
  tokenAt (position + spaces.length) cs

/-- Reads at most `count` tokens from a text that stands at `position`. -/
def scan : (count position : Nat) → List Char → Tokens
  | 0, position, _ => .done position
  | count + 1, position, cs =>
    match next position cs with
    | .done position => .done position
    | .broken cause position => .broken cause position
    | .found token start stop rest => .cons token start stop (scan count stop rest)

/-- The tokens of a text. A token takes at least one character. -/
def ofText (cs : List Char) : Tokens := scan (cs.length + 1) 0 cs

/-- The first token, if the stream neither ends nor breaks there. -/
def head? : Tokens → Option Token
  | .cons token _ _ _ => some token
  | _ => none

/-- Where the first token starts, or the stream ends or breaks. -/
def position : Tokens → Nat
  | .done position => position
  | .broken _ position => position
  | .cons _ start _ _ => start

/-- How many tokens there are before the end or the break. -/
def size : Tokens → Nat
  | .cons _ _ _ rest => rest.size + 1
  | _ => 0

/-- The stream itself, unless it is broken at its very start. -/
def ready : Tokens → Except Fault Tokens
  | .broken cause position => .error (.lexical cause position)
  | ts => .ok ts

/-- The stream behind its first token. -/
def advance : Tokens → Except Fault Tokens
  | .cons _ _ _ rest => rest.ready
  | ts => ts.ready

end Tokens

end Formula
