import Formula.Text.Blank
import Formula.Text.Case
import Formula.Token.Stream

/-!
# Expressions from text

The grammar, loosest binding first:

* six levels of operators that group to the left: `||`, `&&`, equality, order, sums, products;
* signs and `!` in front of an operand;
* `^`, whose right operand may carry a sign and may be a power again;
* one cast `:: type`;
* calls of what stands on the left, any number of them;
* constants, names, calls by name, parentheses and lists.

Each function reads a longest phrase from the front of a token stream whose first token is sound,
and answers the tree and the stream behind the phrase. The counter of each function bounds how
often it is entered again; a phrase is never entered more often than there are tokens.
-/

namespace Formula

/-- A way to read something from the front of a token stream. -/
abbrev Reader (α : Type) := Tokens → Except Fault (α × Tokens)

namespace Reader

/-- The complaint about the token at the front. -/
def complain {α : Type} (cause : GrammarFault) : Reader α :=
  fun ts => .error (.grammar cause ts.position)

/-- The complaint that no expression starts with the token at the front. -/
def unexpected {α : Type} : Reader α := fun ts => complain (.unexpected ts.head?) ts

/-! ### Operators that group to the left -/

/-- Operators and right operands as long as they come, grouped to the left. -/
def chain (operator : Token → Option BinaryOp) (operand : Reader Expr) :
    (count : Nat) → Expr → Reader Expr
  | 0, left, ts => .ok (left, ts)
  | count + 1, left, ts =>
    match ts.head?.bind operator with
    | none => .ok (left, ts)
    | some op => do
      let ts ← ts.advance
      let (right, ts) ← operand ts
      chain operator operand count (.binary left op right) ts

/-- A level of operators that group to the left. -/
def level (operator : Token → Option BinaryOp) (operand : Reader Expr) (count : Nat) :
    Reader Expr := fun ts => do
  let (left, ts) ← operand ts
  chain operator operand count left ts

/-- The operators that group to the left, by level, loosest first. -/
def levels : List (Token → Option BinaryOp) :=
  [fun | .or => some .or | _ => none,
   fun | .and => some .and | _ => none,
   fun | .equal => some .eq | .notEqual => some .ne | _ => none,
   fun | .greater => some .gt | .less => some .lt
       | .greaterEqual => some .ge | .lessEqual => some .le | _ => none,
   fun | .plus => some .add | .minus => some .sub | _ => none,
   fun | .star => some .mul | .slash => some .div | .percent => some .mod | _ => none]

/-! ### Lists of phrases -/

/-- Phrases with commas between them, up to and over the closing token. -/
def sequence (item : Reader Expr) (close : Token) (missing : GrammarFault) :
    (count : Nat) → Reader (List Expr)
  | 0, ts => unexpected ts
  | count + 1, ts => do
    let (e, ts) ← item ts
    if ts.head? = some .comma then do
      let ts ← ts.advance
      let (es, ts) ← sequence item close missing count ts
      .ok (e :: es, ts)
    else if ts.head? = some close then do
      let ts ← ts.advance
      .ok ([e], ts)
    else complain missing ts

/-- A list in brackets, the opening one at the front. -/
def list (item : Reader Expr) (close : Token) (missing : GrammarFault) (count : Nat) :
    Reader (List Expr) := fun ts => do
  let ts ← ts.advance
  if ts.head? = some close then do
    let ts ← ts.advance
    .ok ([], ts)
  else sequence item close missing count ts

/-- An argument of a call, perhaps to be spread. -/
def argument (sub : Reader Expr) : Reader Expr := fun ts =>
  if ts.head? = some .ellipsis then do
    let ts ← ts.advance
    let (e, ts) ← sub ts
    .ok (.spread e, ts)
  else sub ts

/-- The arguments of a call, the opening parenthesis at the front. -/
def arguments (sub : Reader Expr) (count : Nat) : Reader (List Expr) :=
  list (argument sub) .closeParen .missingArgumentEnd count

/-! ### Operands -/

/-- A constant, a name, a call by name, an expression in parentheses or a list. -/
def atom (sub : Reader Expr) (count : Nat) : Reader Expr := fun ts =>
  match ts.head? with
  | some (.number x) => do .ok (.number x, ← ts.advance)
  | some (.text s) => do .ok (.text s, ← ts.advance)
  | some .null => do .ok (.null, ← ts.advance)
  | some .true => do .ok (.literal (.boolean true), ← ts.advance)
  | some .false => do .ok (.literal (.boolean false), ← ts.advance)
  | some .openParen => do
    let ts ← ts.advance
    let (e, ts) ← sub ts
    if ts.head? = some .closeParen then do .ok (e, ← ts.advance)
    else complain .missingCloseParen ts
  | some .colon => do
    let ts ← ts.advance
    match ts.head? with
    | some (.identifier name) => do .ok (.variable name, ← ts.advance)
    | _ => complain .missingVariableName ts
  | some (.identifier name) => do
    let ts ← ts.advance
    if ts.head? = some .openParen then do
      let (es, ts) ← arguments sub count ts
      .ok (.call name es, ts)
    else .ok (.variable name, ts)
  | some .openBracket => do
    let (es, ts) ← list sub .closeBracket .missingItemEnd count ts
    .ok (.array es, ts)
  | _ => unexpected ts

/-- Calls of the expression on the left, as long as they come. -/
def calls (sub : Reader Expr) : (count : Nat) → Expr → Reader Expr
  | 0, target, ts => .ok (target, ts)
  | count + 1, target, ts =>
    if ts.head? = some .openParen then do
      let (es, ts) ← arguments sub count ts
      calls sub count (.invoke target es) ts
    else .ok (target, ts)

/-- The type that a word names, in any letter case. -/
def typeNamed? (name : String) : Option TypeName :=
  let word := String.ofList (Text.lowerText name.toList)
  if word = "integer" ∨ word = "int" then some .integer
  else if word = "float" ∨ word = "number" then some .float
  else if word = "string" then some .string
  else if word = "boolean" ∨ word = "bool" then some .boolean
  else if word = "array" then some .array
  else none

/-- An operand with its calls and at most one cast. -/
def cast (sub : Reader Expr) (count : Nat) : Reader Expr := fun ts => do
  let (e, ts) ← atom sub count ts
  let (e, ts) ← calls sub count e ts
  if ts.head? = some .doubleColon then do
    let ts ← ts.advance
    match ts.head? with
    | some (.identifier name) =>
      match typeNamed? name with
      | some type => do .ok (.cast e type, ← ts.advance)
      | none => complain .unknownType ts
    | _ => complain .missingType ts
  else .ok (e, ts)

/-- The operator that a token is in front of an operand. -/
def sign? : Token → Option UnaryOp
  | .plus => some .plus
  | .minus => some .minus
  | .bang => some .not
  | _ => none

/-- Signs in front of a power; the exponent may be signed again. -/
def signed (sub : Reader Expr) (count : Nat) : (depth : Nat) → Reader Expr
  | 0, ts => unexpected ts
  | depth + 1, ts =>
    match ts.head?.bind sign? with
    | some op => do
      let ts ← ts.advance
      let (e, ts) ← signed sub count depth ts
      .ok (.unary op e, ts)
    | none => do
      let (left, ts) ← cast sub count ts
      if ts.head? = some .caret then do
        let ts ← ts.advance
        let (right, ts) ← signed sub count depth ts
        .ok (.binary left .pow right, ts)
      else .ok (left, ts)

/-! ### Expressions -/

/-- An expression in which brackets are nested less than `depth` deep. -/
def expr : (depth : Nat) → Reader Expr
  | 0, ts => unexpected ts
  | depth + 1, ts =>
    levels.foldr (fun operator operand => level operator operand (depth + 1))
      (signed (expr depth) (depth + 1) (depth + 1)) ts

end Reader

/-- The expression that a whole token stream is. -/
def Expr.ofTokens (ts : Tokens) : Except Fault Expr := do
  let ts ← ts.ready
  let (e, ts) ← Reader.expr (ts.size + 1) ts
  match ts with
  | .done _ => .ok e
  | ts => .error (.grammar .trailingInput ts.position)

/-- The expression that a text without a leading sign `=` is. -/
def Expr.ofText (cs : List Char) : Except Fault Expr := Expr.ofTokens (Tokens.ofText cs)

/-- The part of a formula text that holds the expression: what follows a leading `=` and the blanks
before it, or else the whole text. -/
def Expr.source (cs : List Char) : List Char :=
  match Text.trimStart cs with
  | '=' :: rest => rest
  | _ => cs

/-- The expression that a formula text is, with or without a leading `=`. -/
def Expr.parse (text : String) : Except Fault Expr := Expr.ofText (Expr.source text.toList)

end Formula
