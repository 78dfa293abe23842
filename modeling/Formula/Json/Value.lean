import Formula.Fault
import Formula.Json

/-!
# Values as JSON

The data that a value becomes, and the values that data stands for. Objects stand for no value, and
what JSON has no form for becomes null or a text.
-/

namespace Formula

mutual

/-- The data that a value becomes. -/
def Value.toJson : Value → Json
  | .number x => ((Json.Number.ofFloat? x).map .number).getD .null
  | .text s => .text s
  | .boolean b => .boolean b
  | .null => .null
  | .array items => .list (Value.toJsons items)
  | .lambda parameters _ => .text (lambdaText parameters)
termination_by structural v => v

/-- The data that the values of a list become. -/
def Value.toJsons : List Value → List Json
  | [] => []
  | v :: vs => v.toJson :: Value.toJsons vs
termination_by structural vs => vs

end

mutual

/-- The value that data stands for. -/
def Json.toValue : Json → Except Fault Value
  | .null => .ok .null
  | .boolean b => .ok (.boolean b)
  | .number n => .ok (.number n.toFloat)
  | .text s => .ok (.text s)
  | .list items => do .ok (.array (← Json.toValues items))
  | .object _ => .error (.evaluation .jsonObjectAsValue)
termination_by structural j => j

/-- The values that the items of a list stand for. -/
def Json.toValues : List Json → Except Fault (List Value)
  | [] => .ok []
  | j :: js => do
    let v ← j.toValue
    let vs ← Json.toValues js
    .ok (v :: vs)
termination_by structural js => js

end

end Formula
