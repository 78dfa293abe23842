/-!
# Tokens

The words of a formula text.
-/

namespace Formula

/-- The words a formula is made of. -/
inductive Token where
  | number (value : Float)
  | identifier (name : String)
  | text (content : String)
  | true
  | false
  | null
  | plus
  | minus
  | star
  | slash
  | percent
  | caret
  | bang
  | ellipsis
  | openParen
  | closeParen
  | comma
  | colon
  | doubleColon
  | openBracket
  | closeBracket
  | greater
  | less
  | greaterEqual
  | lessEqual
  | equal
  | notEqual
  | and
  | or
  deriving DecidableEq

/-- The name of a kind of token in messages. -/
def Token.name : Token → String
  | .number _ => "Number"
  | .identifier _ => "Identifier"
  | .text _ => "String"
  | .true => "True"
  | .false => "False"
  | .null => "Null"
  | .plus => "Plus"
  | .minus => "Minus"
  | .star => "Star"
  | .slash => "Slash"
  | .percent => "Percent"
  | .caret => "Caret"
  | .bang => "Bang"
  | .ellipsis => "Ellipsis"
  | .openParen => "LParen"
  | .closeParen => "RParen"
  | .comma => "Comma"
  | .colon => "Colon"
  | .doubleColon => "DoubleColon"
  | .openBracket => "LBracket"
  | .closeBracket => "RBracket"
  | .greater => "Greater"
  | .less => "Less"
  | .greaterEqual => "Ge"
  | .lessEqual => "Le"
  | .equal => "EqEq"
  | .notEqual => "NotEq"
  | .and => "AndAnd"
  | .or => "OrOr"

/-- The name of the end of the text where a token is expected. -/
def Token.endName : String := "Eof"

end Formula
