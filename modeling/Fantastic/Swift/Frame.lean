import Fantastic.Foundation.BigEndian
import Fantastic.Foundation.Value

/-!
# JSON accessors and frames in Swift

The subscripts of `FantasticJSON` and the binary frames of `Codec.swift`. Reading JSON and
UTF-8 is a parameter.
-/

namespace Fantastic.Swift

/-- `value[key]`: `null` on a miss. -/
def member (value : Value) (key : String) : Value :=
  match value with
  | .dict members => (members.lookup key).getD .null
  | _ => .null

def asString : Value → Option String
  | .str text => some text
  | _ => none

/-- `JSON.parse` and `String(data:encoding:.utf8)`. -/
structure Reader where
  parse : String → Option Value
  decode : Bytes → Option String

/-- `Codec.decodeBinaryFrame`. -/
def Reader.decodeBinaryFrame (reader : Reader) (data : Bytes) : Option (Value × Bytes) := do
  let size ← beValue data
  if data.length < 4 + size then none
  else
    let text ← reader.decode ((data.drop 4).take size)
    let header ← reader.parse text
    return (header, data.drop (4 + size))

end Fantastic.Swift
