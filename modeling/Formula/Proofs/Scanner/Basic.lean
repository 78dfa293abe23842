import Formula.Proofs.Scanner.Bytes

/-!
# Scanning bytes

A scanner stands at a byte of a text. It looks for a token behind spaces, comparing bytes with
seven-bit characters, and only when it has come to the end of a word, a numeral or a text literal
does it ask whether the bytes it has passed are a text. So there are faults which reading characters
does not know, and positions that nothing keeps in the text but the looks themselves.
-/

namespace Formula

/-- Why a scanner finds no token. -/
inductive ScanFault where
  | lexical (cause : LexicalFault)
  /-- The bytes of a word or a numeral are no text. -/
  | unreadableInput
  /-- The bytes of a text literal are no text. -/
  | unreadableLiteral
  /-- The text of a numeral is no number. -/
  | unreadableNumber
  deriving DecidableEq

/-- A scanner fault in words. -/
def ScanFault.message : ScanFault → String
  | .lexical cause => cause.message
  | .unreadableInput => "Invalid UTF-8 in input"
  | .unreadableLiteral => "Invalid UTF-8 in string"
  | .unreadableNumber => "Invalid number"

/-- A place in the bytes of a text. -/
structure Scanner where
  bytes : ByteArray
  /-- Where the scanner stands. -/
  position : ℕ
  /-- Where the token starts that was looked for last. -/
  start : ℕ

namespace Scanner

/-- What a look gives: a token, nothing at the end of the text, or a fault and its place. It leaves
the scanner somewhere else. -/
abbrev Look := Except (ScanFault × ℕ) (Option Token) × Scanner

/-- The scanner in front of a text. -/
def ofText (text : String) : Scanner := ⟨text.toUTF8, 0, 0⟩

/-- The scanner a number of bytes further on. -/
def skip (s : Scanner) (count : ℕ) : Scanner := { s with position := s.position + count }

/-- The byte that is a number of bytes ahead, if the text goes on so far. -/
def ahead (s : Scanner) (count : ℕ) : Option UInt8 := s.bytes[s.position + count]?

/-- Whether the byte a number of bytes ahead is a character that meets a condition. -/
def sees (s : Scanner) (count : ℕ) (p : Char → Bool) : Bool :=
  (s.ahead count).any fun b => p (Char.ofUInt8 b)

/-- There is a byte where one is seen. -/
lemma lt_size_of_ahead {s : Scanner} {count : ℕ} {b : UInt8} (h : s.ahead count = some b) :
    s.position + count < s.bytes.size := by
  by_contra beyond
  rw [ahead, getElem?_neg s.bytes _ beyond] at h
  cases h

lemma exists_ahead_of_sees {s : Scanner} {count : ℕ} {p : Char → Bool} (h : s.sees count p) :
    ∃ b, s.ahead count = some b ∧ p (Char.ofUInt8 b) := by
  simpa [sees, Option.any_eq_true] using h

lemma lt_size_of_sees {s : Scanner} {count : ℕ} {p : Char → Bool} (h : s.sees count p) :
    s.position + count < s.bytes.size := by
  obtain ⟨b, found, -⟩ := exists_ahead_of_sees h
  exact lt_size_of_ahead found

/-- Passes the bytes in front that meet a condition. -/
def skipWhile (p : Char → Bool) (s : Scanner) : Scanner :=
  if _more : s.sees 0 p then (s.skip 1).skipWhile p else s
termination_by s.bytes.size - s.position
decreasing_by
  have inside := lt_size_of_sees _more
  simp only [skip]
  omega

/-- The text from the start of the token to where the scanner stands. -/
def spelled (s : Scanner) : Option String := String.fromUTF8? (s.bytes.extract s.start s.position)

/-- Passes digits and, unless it has been `pointed` already, a point among them. A point in front
of another one is none of a numeral. -/
def skipNumeral (pointed : Bool) (s : Scanner) : Scanner :=
  if _digit : s.sees 0 Char.isDigit then (s.skip 1).skipNumeral pointed
  else if _point : s.sees 0 (· == '.') ∧ ¬ pointed ∧ ¬ s.sees 1 (· == '.') then
    (s.skip 1).skipNumeral true
  else s
termination_by s.bytes.size - s.position
decreasing_by
  · have inside := lt_size_of_sees _digit
    simp only [skip]
    omega
  · have inside := lt_size_of_sees _point.1
    simp only [skip]
    omega

/-- Reads a numeral whose first character, a digit or the point, has been passed. -/
def numeral (pointed : Bool) (s : Scanner) : Look :=
  let t := s.skipNumeral pointed
  match t.spelled with
  | none => (.error (.unreadableInput, t.start), t)
  | some text =>
    match Number.read? text.toList with
    | none => (.error (.unreadableNumber, t.start), t)
    | some x => (.ok (some (.number x)), t)

/-- Reads a word whose first character has been passed. -/
def word (s : Scanner) : Look :=
  let t := s.skipWhile Tokens.isWordPart
  match t.spelled with
  | none => (.error (.unreadableInput, t.start), t)
  | some text => (.ok (some (Tokens.word text.toList)), t)

/-- The byte that an escaped byte stands for. -/
def unescape (b : UInt8) : UInt8 :=
  if Char.ofUInt8 b = 'n' then '\n'.toUInt8
  else if Char.ofUInt8 b = 't' then '\t'.toUInt8
  else b

/-- Reads a text literal from behind its opening quote, with the content that was read so far. -/
def literal (quote : Char) (content : List UInt8) (s : Scanner) : Look :=
  match _here : s.ahead 0 with
  | none => (.error (.lexical .unfinishedText, s.position), s)
  | some b =>
    if Char.ofUInt8 b = quote then
      match String.fromUTF8? content.toByteArray with
      | none => (.error (.unreadableLiteral, s.position + 1), s.skip 1)
      | some text => (.ok (some (.text text)), s.skip 1)
    else if Char.ofUInt8 b = '\\' then
      match _next : s.ahead 1 with
      | none => (.error (.lexical .unfinishedEscape, s.position + 1), s.skip 1)
      | some e => (s.skip 2).literal quote (content ++ [unescape e])
    else (s.skip 1).literal quote (content ++ [b])
termination_by s.bytes.size - s.position
decreasing_by
  · have inside := lt_size_of_ahead _next
    simp only [skip]
    omega
  · have inside := lt_size_of_ahead _here
    simp only [skip]
    omega

lemma literal_of_none {s : Scanner} (none : s.ahead 0 = none) (quote : Char)
    (content : List UInt8) :
    s.literal quote content = (.error (.lexical .unfinishedText, s.position), s) := by
  rw [literal]
  split
  · rfl
  · next found => simp [none] at found

lemma literal_of_some {s : Scanner} {b : UInt8} (here : s.ahead 0 = some b) (quote : Char)
    (content : List UInt8) :
    s.literal quote content =
      if Char.ofUInt8 b = quote then
        match String.fromUTF8? content.toByteArray with
        | none => (.error (.unreadableLiteral, s.position + 1), s.skip 1)
        | some text => (.ok (some (.text text)), s.skip 1)
      else if Char.ofUInt8 b = '\\' then
        match s.ahead 1 with
        | none => (.error (.lexical .unfinishedEscape, s.position + 1), s.skip 1)
        | some e => (s.skip 2).literal quote (content ++ [unescape e])
      else (s.skip 1).literal quote (content ++ [b]) := by
  rw [literal]
  split
  · next none => simp [here] at none
  · next found =>
    cases here.symm.trans found
    congr 2
    split <;> simp [*]

/-- The tokens of fixed spelling that start with a character: those with a second character, and
the one of that character alone or why there is none. -/
def openings : Char → List (Char × Token) × Except LexicalFault Token
  | '+' => ([], .ok .plus)
  | '-' => ([], .ok .minus)
  | '*' => ([], .ok .star)
  | '/' => ([], .ok .slash)
  | '%' => ([], .ok .percent)
  | '^' => ([], .ok .caret)
  | '!' => ([('=', .notEqual)], .ok .bang)
  | '(' => ([], .ok .openParen)
  | ')' => ([], .ok .closeParen)
  | '[' => ([], .ok .openBracket)
  | ']' => ([], .ok .closeBracket)
  | ',' => ([], .ok .comma)
  | ':' => ([(':', .doubleColon)], .ok .colon)
  | '>' => ([('=', .greaterEqual)], .ok .greater)
  | '<' => ([('=', .lessEqual), ('>', .notEqual)], .ok .less)
  | '=' => ([('=', .equal)], .ok .equal)
  | '&' => ([('&', .and)], .error .loneAmpersand)
  | '|' => ([('|', .or)], .error .loneBar)
  | _ => ([], .error .strangeCharacter)

/-- Reads a token of fixed spelling whose first character has been passed. -/
def symbol (c : Char) (s : Scanner) : Look :=
  match (openings c).1.find? fun second => s.sees 0 (· == second.1) with
  | some (_, token) => (.ok (some token), s.skip 1)
  | none =>
    match (openings c).2 with
    | .ok token => (.ok (some token), s)
    | .error cause => (.error (.lexical cause, s.start), s)

/-- Reads a token that starts with a point, which has been passed: three points or a numeral. -/
def point (s : Scanner) : Look :=
  if s.sees 0 (· == '.') ∧ s.sees 1 (· == '.') then (.ok (some .ellipsis), s.skip 2)
  else if s.sees 0 Char.isDigit then s.numeral true
  else (.error (.lexical .loneDot, s.start), s)

/-- Reads the token that starts where the scanner stands. -/
def token (s : Scanner) : Look :=
  match s.ahead 0 with
  | none => (.ok none, s)
  | some b =>
    let c := Char.ofUInt8 b
    if c.isDigit then (s.skip 1).numeral false
    else if Tokens.isWordStart c then (s.skip 1).word
    else if c = '"' ∨ c = '\'' then (s.skip 1).literal c []
    else if c = '.' then (s.skip 1).point
    else (s.skip 1).symbol c

/-- The scanner with the start of a token where it stands. -/
def mark (s : Scanner) : Scanner := { s with start := s.position }

/-- Looks for a token, behind spaces. -/
def next (s : Scanner) : Look := (s.skipWhile Tokens.isSpace).mark.token

end Scanner

end Formula
