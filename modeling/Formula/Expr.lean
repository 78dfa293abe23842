/-!
# Expressions and values

A formula is an expression; what it stands for is a value. The two are defined together, since a
lambda value holds an expression and an expression may hold a value already computed.
-/

namespace Formula

/-- The types a value can be cast to. -/
inductive TypeName where
  | integer
  | float
  | string
  | boolean
  | array
  deriving DecidableEq

/-- The operators with one operand. -/
inductive UnaryOp where
  | plus
  | minus
  | not
  deriving DecidableEq

/-- The operators between two operands. -/
inductive BinaryOp where
  | add
  | sub
  | mul
  | div
  | mod
  | pow
  | gt
  | lt
  | ge
  | le
  | eq
  | ne
  | and
  | or
  deriving DecidableEq

mutual

/-- The values of the language. A lambda is not closed over the scope that made it: its body is
evaluated wherever it is called. -/
inductive Value where
  | number (value : Float)
  | text (value : String)
  | boolean (value : Bool)
  | null
  | array (items : List Value)
  | lambda (parameters : List String) (body : Expr)

/-- The expressions of the language. A `literal` is a value handed on as an argument. -/
inductive Expr where
  | literal (value : Value)
  | number (value : Float)
  | text (value : String)
  | null
  | unary (op : UnaryOp) (operand : Expr)
  | binary (left : Expr) (op : BinaryOp) (right : Expr)
  | variable (name : String)
  | call (name : String) (arguments : List Expr)
  | invoke (target : Expr) (arguments : List Expr)
  | spread (list : Expr)
  | array (items : List Expr)
  | cast (operand : Expr) (type : TypeName)

end

instance : Inhabited Value := ⟨.null⟩

instance : Inhabited Expr := ⟨.null⟩

/-- The name of a type as it is spelled in an expression tree. -/
def TypeName.name : TypeName → String
  | .integer => "Integer"
  | .float => "Float"
  | .string => "String"
  | .boolean => "Boolean"
  | .array => "Array"

/-- The sign of an operator with one operand. -/
def UnaryOp.sign : UnaryOp → String
  | .plus => "+"
  | .minus => "-"
  | .not => "!"

/-- The sign of an operator between two operands. -/
def BinaryOp.sign : BinaryOp → String
  | .add => "+"
  | .sub => "-"
  | .mul => "*"
  | .div => "/"
  | .mod => "%"
  | .pow => "^"
  | .gt => ">"
  | .lt => "<"
  | .ge => ">="
  | .le => "<="
  | .eq => "="
  | .ne => "<>"
  | .and => "&&"
  | .or => "||"

end Formula
