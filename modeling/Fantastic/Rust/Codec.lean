import Fantastic.Foundation.BigEndian
import Fantastic.Foundation.Value
import Mathlib.Algebra.Group.Int.Defs
import Mathlib.Data.List.TakeDrop

/-!
# The binary frame codec

`fantastic-io-bridge/src/codec.rs` and the accessors of `serde_json` that its callers
use. A frame is four length bytes, a JSON header of that many bytes, and the raw
body. The serializer itself is a parameter.
-/

namespace Fantastic.Rust

/-- `serde_json::to_vec` and `serde_json::from_slice`. -/
structure Serde where
  toVec : Value → Bytes
  fromSlice : Bytes → Option Value

/-- `value.get(name)`. -/
def field (value : Value) (name : String) : Option Value :=
  match value with
  | .dict members => members.lookup name
  | _ => none

/-- `.and_then(Value::as_str)`. -/
def asStr : Option Value → Option String
  | some (.str text) => some text
  | _ => none

/-- `.and_then(Value::as_u64)`. -/
def asU64 : Option Value → Option Nat
  | some (.int number) =>
    if 0 ≤ number ∧ number < 2 ^ 64 then some number.toNat else none
  | _ => none

/-- `encode_binary_frame`. -/
def encodeBinaryFrame (serde : Serde) (header : Value) (body : Bytes) : Bytes :=
  beBytes (serde.toVec header).length ++ (serde.toVec header ++ body)

/-- `decode_binary_frame`. -/
def decodeBinaryFrame (serde : Serde) (data : Bytes) : Option (Value × Bytes) :=
  match beValue data with
  | none => none
  | some size =>
    if data.length < 4 + size then none
    else (serde.fromSlice ((data.drop 4).take size)).map fun header =>
      (header, data.drop (4 + size))

theorem encodeBinaryFrame_length (serde : Serde) (header : Value) (body : Bytes) :
    (encodeBinaryFrame serde header body).length =
      4 + ((serde.toVec header).length + body.length) := by
  simp [encodeBinaryFrame, beBytes_length]

/-- The split of a frame whose header is short enough for its length prefix. -/
theorem encodeBinaryFrame_split (serde : Serde) (header : Value) (body : Bytes) :
    ((encodeBinaryFrame serde header body).drop 4).take (serde.toVec header).length =
        serde.toVec header ∧
      (encodeBinaryFrame serde header body).drop (4 + (serde.toVec header).length) = body :=
  framed_split _ _ body

/-- The codec gives a frame back when its header fits the length prefix. -/
theorem decode_encode {serde : Serde} {header : Value} {body : Bytes}
    (parses : serde.fromSlice (serde.toVec header) = some header)
    (fits : (serde.toVec header).length < 2 ^ 32) :
    decodeBinaryFrame serde (encodeBinaryFrame serde header body) = some (header, body) := by
  have size : beValue (encodeBinaryFrame serde header body) =
      some (serde.toVec header).length := by
    rw [encodeBinaryFrame, beValue_beBytes, Nat.mod_eq_of_lt fits]
  have split := encodeBinaryFrame_split serde header body
  rw [decodeBinaryFrame, size]
  simp only [encodeBinaryFrame_length, split, parses]
  rw [if_neg (by omega), Option.map_some]

end Fantastic.Rust
