import Formula.Config

/-!
# JSON data

The data of JSON texts, and what reads such texts and writes them. Which texts are read, and in
which words one is refused, is up to a codec, so a program that reads JSON has one as a parameter.
-/

namespace Formula

/-- Whether a number is neither infinite nor a NaN. -/
def Number.isFinite (x : Float) : Bool := !x.isInf && !x.isNaN

/-- A number in JSON data. -/
inductive Json.Number where
  | whole (value : Int)
  | double (value : Float)

/-- JSON data. -/
inductive Json where
  | null
  | boolean (value : Bool)
  | number (value : Json.Number)
  | text (content : String)
  | list (items : List Json)
  | object (members : List (String × Json))

namespace Json

/-! ### Numbers -/

/-- The double of a number. -/
def Number.toFloat : Number → Float
  | .whole n => Float.ofInt n
  | .double x => x

/-- The number of a double, which infinities and NaNs have none of. -/
def Number.ofFloat? (x : Float) : Option Number :=
  if Formula.Number.isFinite x then some (.double x) else none

theorem Number.ofFloat?_of_isFinite {x : Float} (finite : Formula.Number.isFinite x = true) :
    ofFloat? x = some (.double x) :=
  if_pos finite

theorem Number.ofFloat?_of_not_isFinite {x : Float}
    (infinite : ¬ Formula.Number.isFinite x = true) : ofFloat? x = none :=
  if_neg infinite

/-- A double comes back from its number. -/
theorem Number.toFloat_of_ofFloat? {x : Float} {n : Number} (made : ofFloat? x = some n) :
    n.toFloat = x := by
  obtain ⟨-, ⟨⟩⟩ := Option.ite_none_right_eq_some.1 made
  rfl

/-- That data occurs in other data, at whatever depth. -/
inductive Occurs (j : Json) : Json → Prop
  | self : Occurs j j
  | item {k : Json} {items : List Json} (mem : k ∈ items) (inside : Occurs j k) :
      Occurs j (.list items)
  | member {m : String × Json} {members : List (String × Json)} (mem : m ∈ members)
      (inside : Occurs j m.2) : Occurs j (.object members)

/-- That every number in data has a finite double. -/
def IsFinite (j : Json) : Prop :=
  ∀ n, Occurs (.number n) j → Formula.Number.isFinite n.toFloat = true

/-! ### Codecs -/

/-- What reads JSON texts and writes them. What is wrong with a text that cannot be read, the codec
says in words of its own. -/
structure Codec where
  /-- The data that a text stands for. -/
  decode : String → Except String Json
  /-- The configuration that a text stands for, be it sound or not. -/
  decodeConfig : String → Except String Config
  /-- Data as a text. -/
  encode : Json → Option String

/-- That the numbers that a codec reads have finite doubles. -/
def Codec.ReadsFinite (codec : Codec) : Prop :=
  ∀ text j, codec.decode text = .ok j → j.IsFinite

end Json

end Formula
