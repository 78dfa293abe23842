import Formula.Token
import Formula.Value

/-!
# Faults

Why a formula has no value. A fault is its cause; its wording is in `Fault.message`, and the broad
category that callers tell apart is `Fault.category`.
-/

namespace Formula

/-- Why the characters at some place form no token. -/
inductive LexicalFault where
  | loneDot
  | loneAmpersand
  | loneBar
  | strangeCharacter
  | unfinishedEscape
  | unfinishedText
  deriving DecidableEq

/-- Why a token cannot stand where it does. -/
inductive GrammarFault where
  | trailingInput
  | missingCloseParen
  | unknownType
  | missingType
  | missingArgumentEnd
  | missingVariableName
  | missingItemEnd
  | unexpected (token : Option Token)
  deriving DecidableEq

/-- Why a call has the wrong number of arguments. -/
inductive ArityFault where
  | letWithoutBody
  | letWithoutFinal
  | lambdaWithoutBody
  | rangeArguments (function : String) (valueRange : Bool) (count : Nat)
  | tooFew (function : String) (least count : Nat)
  | tooMany (function : String) (most count : Nat)
  | lambdaArguments (expected count : Nat)
  deriving DecidableEq

/-- Why a name cannot be bound or called. Positions count arguments from one. -/
inductive NamingFault where
  | containsSeparator (name : String) (position : Nat)
  | notIdentifier (name : String) (position : Nat)
  | duplicate (name : String) (position : Nat)
  | notName (position : Nat) (kind : Kind)
  | namedValue (name : String)
  deriving DecidableEq

/-- Why an evaluation stops. -/
inductive EvaluationFault where
  | unaryOperand (op : UnaryOp)
  | arithmeticOperand
  | logicalOperand
  | incomparable (left right : Kind)
  | spreadOfScalar
  | misplacedSpread
  | unknownFunction (name : String)
  | notCallable (kind : Kind)
  | uncastable (kind : Kind) (type : TypeName)
  | emptyAverage
  | criteriaOutcome (kind : Kind)
  | unrenderable (kind : Kind)
  | nestingTooDeep
  | emptyFunctionName
  | contradictoryBounds
  | invalidJson (detail : String)
  | jsonNotObject
  | jsonObjectAsValue
  | raised (message : String)
  deriving DecidableEq

/-- Why a file has no text to read. -/
inductive FileFault where
  | missing
  | forbidden
  | notDirectory
  | isDirectory
  | nameTooLong
  | linkLoop
  | notText
  | other (reason : String)
  deriving DecidableEq

/-- Why a configuration is refused. -/
inductive ConfigFault where
  | invalid (detail : String)
  | equalSeparators (separator : Char)
  | unreadable (path : String) (cause : FileFault)
  deriving DecidableEq

/-- Why a formula has no value. -/
inductive Fault where
  | lexical (cause : LexicalFault) (position : Nat)
  | grammar (cause : GrammarFault) (position : Nat)
  | arity (cause : ArityFault)
  | naming (cause : NamingFault)
  | unresolved (name : String)
  | evaluation (cause : EvaluationFault)
  | config (cause : ConfigFault)
  deriving DecidableEq

/-- The broad categories of faults. -/
inductive Category where
  | parse
  | arity
  | naming
  | unresolvedReference
  | evaluation
  | config
  deriving DecidableEq

/-- The category of a fault. -/
def Fault.category : Fault → Category
  | .lexical _ _ => .parse
  | .grammar _ _ => .parse
  | .arity _ => .arity
  | .naming _ => .naming
  | .unresolved _ => .unresolvedReference
  | .evaluation _ => .evaluation
  | .config _ => .config

/-- The place of a fault in the formula text, counted in bytes. -/
def Fault.position? : Fault → Option Nat
  | .lexical _ position => some position
  | .grammar _ position => some position
  | _ => none

/-- The greatest number of scopes between an expression and the root. -/
def maxScopeDepth : Nat := 64

/-- The character that no bound name may contain. -/
def nameSeparator : Char := '.'

/-! ### Wording -/

/-- A lexical fault in words. -/
def LexicalFault.message : LexicalFault → String
  | .loneDot => "Unexpected '.'"
  | .loneAmpersand => "Unexpected '&'"
  | .loneBar => "Unexpected '|'"
  | .strangeCharacter => "Unexpected character"
  | .unfinishedEscape => "Unterminated escape in string"
  | .unfinishedText => "Unterminated string literal"

/-- A grammar fault in words. -/
def GrammarFault.message : GrammarFault → String
  | .trailingInput => "Unexpected trailing input"
  | .missingCloseParen => "Expected ')'"
  | .unknownType => "Unknown cast type"
  | .missingType => "Expected type name after '::'"
  | .missingArgumentEnd => "Expected ',' or ')' in argument list"
  | .missingVariableName => "Expected variable name after ':'"
  | .missingItemEnd => "Expected ',' or ']' in array"
  | .unexpected token => "Unexpected token: " ++ (token.map Token.name).getD Token.endName

/-- An arity fault in words. -/
def ArityFault.message : ArityFault → String
  | .letWithoutBody => "Missing computed value/expression"
  | .letWithoutFinal => "Missing final computed value/expression"
  | .lambdaWithoutBody => "Missing last parameter with expression"
  | .rangeArguments function true count => s!"{function} expects 2 or 3 arguments, got {count}"
  | .rangeArguments function false count => s!"{function} expects 2 arguments, got {count}"
  | .tooFew function least count =>
    s!"{function} expects at least {least} arguments, got {count}"
  | .tooMany function most count =>
    s!"{function} expects at most {most} arguments, got {count}"
  | .lambdaArguments expected count =>
    s!"LAMBDA expects {expected} argument(s), got {count}"

/-- A naming fault in words. -/
def NamingFault.message : NamingFault → String
  | .containsSeparator name position =>
    s!"Name '{name}' at argument {position} must not contain '{nameSeparator}'"
  | .notIdentifier name position => s!"Invalid name '{name}' at argument {position}"
  | .duplicate name position => s!"Duplicate name '{name}' at argument {position}"
  | .notName position kind => s!"Argument {position} must be a name, got {kind.name}"
  | .namedValue name => s!"Function name '{name}' is a named value, not an actual function"

/-- An evaluation fault in words. -/
def EvaluationFault.message : EvaluationFault → String
  | .unaryOperand .not => "Unary '!' on non-boolean"
  | .unaryOperand op => s!"Unary '{op.sign}' on non-number"
  | .arithmeticOperand => "Arithmetic op on non-number"
  | .logicalOperand => "Logical op on non-boolean"
  | .incomparable left right => s!"Comparison of incompatible types: {left.name} and {right.name}"
  | .spreadOfScalar => "Spread expects array"
  | .misplacedSpread => "Spread not allowed here"
  | .unknownFunction name => s!"Unknown function: {name}"
  | .notCallable kind => s!"{kind.name} is not callable"
  | .uncastable kind type => s!"Cannot cast {kind.name} to {type.name}"
  | .emptyAverage => "AVERAGE of an empty set"
  | .criteriaOutcome kind => s!"Criteria produced {kind.name}, expected Boolean"
  | .unrenderable kind => s!"Cannot render {kind.name} as text"
  | .nestingTooDeep => s!"Scope nesting exceeds {maxScopeDepth} levels"
  | .emptyFunctionName => "Function name cannot be empty"
  | .contradictoryBounds => "min_args cannot be greater than max_args"
  | .invalidJson detail => s!"Invalid JSON: {detail}"
  | .jsonNotObject => "JSON must be an object with key-value pairs"
  | .jsonObjectAsValue => "JSON objects are not supported as values"
  | .raised message => message

/-- A file fault in words, as the operating system puts it where it has a number for it. -/
def FileFault.message : FileFault → String
  | .missing => "No such file or directory (os error 2)"
  | .forbidden => "Permission denied (os error 13)"
  | .notDirectory => "Not a directory (os error 20)"
  | .isDirectory => "Is a directory (os error 21)"
  | .nameTooLong => "File name too long (os error 36)"
  | .linkLoop => "Too many levels of symbolic links (os error 40)"
  | .notText => "stream did not contain valid UTF-8"
  | .other reason => reason

/-- A configuration fault in words. -/
def ConfigFault.message : ConfigFault → String
  | .invalid detail => s!"Invalid configuration: {detail}"
  | .equalSeparators separator =>
    s!"Decimal and group separators must differ (both are '{separator}')"
  | .unreadable path cause => s!"Failed to read {path}: {cause.message}"

/-- A fault in words; a place in the formula text comes last. -/
def Fault.message : Fault → String
  | .lexical cause position => s!"{cause.message} at position {position}"
  | .grammar cause position => s!"{cause.message} at position {position}"
  | .arity cause => cause.message
  | .naming cause => cause.message
  | .unresolved name => s!"Unresolved reference: {name}"
  | .evaluation cause => cause.message
  | .config cause => cause.message

end Formula
