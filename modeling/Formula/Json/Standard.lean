import Formula.Json.Config
import Formula.Json.Data
import Formula.Json.Pretty

/-!
# The standard codec

The codec that the program runs with. It reads what its syntax of JSON texts admits and writes data
one item a line.
-/

namespace Formula.Json

/-- The data that a JSON text stands for. -/
def ofText? (text : String) : Option Json := (Syntax.ofText? text).bind (Syntax.data? maxDepth)

/-- The configuration that a JSON text stands for. -/
def configOfText (text : String) : Except String Config :=
  match Syntax.ofText? text with
  | none => .error "malformed text"
  | some s =>
    match s.config? with
    | none => .error "not a configuration"
    | some config => .ok config

/-- The standard codec. -/
def Codec.standard : Codec where
  decode text :=
    match ofText? text with
    | none => .error "malformed text"
    | some json => .ok json
  decodeConfig := configOfText
  encode json := some (json.pretty 0)

end Formula.Json
