import Formula.Expr
import Formula.Text.Case
import Formula.Token
import Mathlib.Tactic.Lemma

/-!
# The grammar of formulas

What a sequence of tokens stands for, said by rules and without a way to read it. A rule speaks of
the front of a sequence and names what is left of it: `Derives s ts e us` says that `ts` starts with
a phrase of the form `s` that stands for `e`, and that `us` follows the phrase. Only one rule asks
what comes next, since a word in front of an opening parenthesis is the name of a function.

```
or        := and (|| and)*            each of these levels grouped to the left
and       := equality (&& equality)*
equality  := order ((= <>) order)*
order     := sum ((< <= > >=) sum)*
sum       := product ((+ -) product)*
product   := signed ((* / %) signed)*
signed    := (+ - !) signed | power
power     := cast [^ signed]
cast      := called [:: type]
called    := atom ( [argument (, argument)*] )*
argument  := ... or | or
atom      := number | text | NULL | TRUE | FALSE | ( or ) | : name
           | name ( [argument (, argument)*] ) | name | [ [or (, or)*] ]
```
-/

namespace Formula.Grammar

/-! ### Words and signs -/

/-- The levels of operators that group to the left, loosest first. -/
inductive Level where
  | or
  | and
  | equality
  | order
  | sum
  | product

/-- The forms of phrases that stand for one expression. -/
inductive Form where
  | level (level : Level)
  | signed
  | power
  | cast
  | called
  | atom
  | argument

/-- The signs of a level and what they stand for. -/
def Level.signs : Level → List (Token × BinaryOp)
  | .or => [(.or, .or)]
  | .and => [(.and, .and)]
  | .equality => [(.equal, .eq), (.notEqual, .ne)]
  | .order => [(.less, .lt), (.lessEqual, .le), (.greater, .gt), (.greaterEqual, .ge)]
  | .sum => [(.plus, .add), (.minus, .sub)]
  | .product => [(.star, .mul), (.slash, .div), (.percent, .mod)]

/-- What the signs of a level stand between. -/
def Level.operand : Level → Form
  | .or => .level .and
  | .and => .level .equality
  | .equality => .level .order
  | .order => .level .sum
  | .sum => .level .product
  | .product => .signed

/-- The signs in front of an operand and what they stand for. -/
def signs : List (Token × UnaryOp) := [(.plus, .plus), (.minus, .minus), (.bang, .not)]

/-- The words for types, in lower case. -/
def typeWords : List (String × TypeName) :=
  [("integer", .integer), ("int", .integer), ("float", .float), ("number", .float),
   ("string", .string), ("boolean", .boolean), ("bool", .boolean), ("array", .array)]

/-- That a name is a word for a type, in whatever letter case. -/
def NamesType (name : String) (type : TypeName) : Prop :=
  ∃ word, (word, type) ∈ typeWords ∧ Text.lowerText name.toList = word.toList

/-! ### Rules -/

mutual

/-- That a sequence of tokens starts with a phrase that stands for an expression. -/
inductive Derives : Form → List Token → Expr → List Token → Prop
  | level {l : Level} {ts us vs : List Token} {a e : Expr}
      (first : Derives l.operand ts a us) (more : Chain l a us e vs) : Derives (.level l) ts e vs
  | sign {t : Token} {op : UnaryOp} {ts us : List Token} {e : Expr} (sign : (t, op) ∈ signs)
      (operand : Derives .signed ts e us) : Derives .signed (t :: ts) (.unary op e) us
  | unsigned {ts us : List Token} {e : Expr} (power : Derives .power ts e us) :
      Derives .signed ts e us
  | power {ts us vs : List Token} {a b : Expr} (base : Derives .cast ts a (.caret :: us))
      (exponent : Derives .signed us b vs) : Derives .power ts (.binary a .pow b) vs
  | base {ts us : List Token} {e : Expr} (base : Derives .cast ts e us) : Derives .power ts e us
  | cast {ts us : List Token} {e : Expr} {name : String} {type : TypeName}
      (operand : Derives .called ts e (.doubleColon :: .identifier name :: us))
      (word : NamesType name type) : Derives .cast ts (.cast e type) us
  | uncast {ts us : List Token} {e : Expr} (operand : Derives .called ts e us) :
      Derives .cast ts e us
  | called {ts us vs : List Token} {a e : Expr} (first : Derives .atom ts a us)
      (more : Calls a us e vs) : Derives .called ts e vs
  | spread {ts us : List Token} {e : Expr} (list : Derives (.level .or) ts e us) :
      Derives .argument (.ellipsis :: ts) (.spread e) us
  | argument {ts us : List Token} {e : Expr} (value : Derives (.level .or) ts e us) :
      Derives .argument ts e us
  | number {x : Float} {us : List Token} : Derives .atom (.number x :: us) (.number x) us
  | text {s : String} {us : List Token} : Derives .atom (.text s :: us) (.text s) us
  | null {us : List Token} : Derives .atom (.null :: us) .null us
  | true {us : List Token} : Derives .atom (.true :: us) (.literal (.boolean Bool.true)) us
  | false {us : List Token} : Derives .atom (.false :: us) (.literal (.boolean Bool.false)) us
  | parentheses {ts us : List Token} {e : Expr}
      (inner : Derives (.level .or) ts e (.closeParen :: us)) :
      Derives .atom (.openParen :: ts) e us
  | colon {name : String} {us : List Token} :
      Derives .atom (.colon :: .identifier name :: us) (.variable name) us
  | call {name : String} {ts us : List Token} {es : List Expr}
      (arguments : Listed .argument .closeParen ts es us) :
      Derives .atom (.identifier name :: .openParen :: ts) (.call name es) us
  | name {name : String} {us : List Token} (next : us.head? ≠ some .openParen) :
      Derives .atom (.identifier name :: us) (.variable name) us
  | array {ts us : List Token} {es : List Expr}
      (items : Listed (.level .or) .closeBracket ts es us) :
      Derives .atom (.openBracket :: ts) (.array es) us

/-- That signs and operands of a level, any number of them, follow a left operand, and what they
make of it. -/
inductive Chain : Level → Expr → List Token → Expr → List Token → Prop
  | done {l : Level} {a : Expr} {us : List Token} : Chain l a us a us
  | more {l : Level} {t : Token} {op : BinaryOp} {ts us vs : List Token} {a b e : Expr}
      (sign : (t, op) ∈ l.signs) (operand : Derives l.operand ts b us)
      (rest : Chain l (.binary a op b) us e vs) : Chain l a (t :: ts) e vs

/-- That lists of arguments, any number of them, follow what is called, and what they make of it. -/
inductive Calls : Expr → List Token → Expr → List Token → Prop
  | done {a : Expr} {us : List Token} : Calls a us a us
  | more {ts us vs : List Token} {a e : Expr} {es : List Expr}
      (arguments : Listed .argument .closeParen ts es us) (rest : Calls (.invoke a es) us e vs) :
      Calls a (.openParen :: ts) e vs

/-- That phrases with commas between them, perhaps none, come up to a closing token. -/
inductive Listed : Form → Token → List Token → List Expr → List Token → Prop
  | none {f : Form} {close : Token} {us : List Token} : Listed f close (close :: us) [] us
  | some {f : Form} {close : Token} {ts us : List Token} {es : List Expr}
      (items : Sequence f close ts es us) : Listed f close ts es us

/-- That phrases with commas between them, at least one, come up to a closing token. -/
inductive Sequence : Form → Token → List Token → List Expr → List Token → Prop
  | last {f : Form} {close : Token} {ts us : List Token} {e : Expr}
      (item : Derives f ts e (close :: us)) : Sequence f close ts [e] us
  | more {f : Form} {close : Token} {ts us vs : List Token} {e : Expr} {es : List Expr}
      (item : Derives f ts e (.comma :: us)) (rest : Sequence f close us es vs) :
      Sequence f close ts (e :: es) vs

end

/-! ### Phrases take tokens -/

mutual

/-- A phrase takes at least one token. -/
lemma Derives.length_lt {f : Form} {ts us : List Token} {e : Expr} (h : Derives f ts e us) :
    us.length < ts.length := by
  match h with
  | .level first more => exact Nat.lt_of_le_of_lt more.length_le first.length_lt
  | .sign _ operand => exact Nat.lt_succ_of_lt operand.length_lt
  | .unsigned power => exact power.length_lt
  | .power base exponent =>
    have left := base.length_lt
    have right := exponent.length_lt
    rw [List.length_cons] at left
    omega
  | .base base => exact base.length_lt
  | .cast operand _ =>
    have taken := operand.length_lt
    simp only [List.length_cons] at taken
    omega
  | .uncast operand => exact operand.length_lt
  | .called first more => exact Nat.lt_of_le_of_lt more.length_le first.length_lt
  | .spread list => exact Nat.lt_succ_of_lt list.length_lt
  | .argument value => exact value.length_lt
  | .parentheses inner =>
    have taken := inner.length_lt
    simp only [List.length_cons] at taken ⊢
    omega
  | .call arguments =>
    have taken := arguments.length_lt
    simp only [List.length_cons]
    omega
  | .array items => exact Nat.lt_succ_of_lt items.length_lt
  | .number | .text | .null | .true | .false | .name _ => exact Nat.lt_succ_self _
  | .colon =>
    simp only [List.length_cons]
    omega

lemma Chain.length_le {l : Level} {a e : Expr} {ts us : List Token} (h : Chain l a ts e us) :
    us.length ≤ ts.length := by
  match h with
  | .done => exact Nat.le_refl _
  | .more _ operand rest =>
    have taken := operand.length_lt
    have others := rest.length_le
    rw [List.length_cons]
    omega

lemma Calls.length_le {a e : Expr} {ts us : List Token} (h : Calls a ts e us) :
    us.length ≤ ts.length := by
  match h with
  | .done => exact Nat.le_refl _
  | .more arguments rest =>
    have taken := arguments.length_lt
    have others := rest.length_le
    rw [List.length_cons]
    omega

lemma Listed.length_lt {f : Form} {close : Token} {ts us : List Token} {es : List Expr}
    (h : Listed f close ts es us) : us.length < ts.length := by
  match h with
  | .none => exact Nat.lt_succ_self _
  | .some items => exact items.length_lt

lemma Sequence.length_lt {f : Form} {close : Token} {ts us : List Token} {es : List Expr}
    (h : Sequence f close ts es us) : us.length < ts.length := by
  match h with
  | .last item => exact Nat.lt_of_succ_lt item.length_lt
  | .more item rest =>
    have taken := item.length_lt
    have others := rest.length_lt
    rw [List.length_cons] at taken
    omega

end

end Formula.Grammar
