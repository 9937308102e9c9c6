import Fantastic.Foundation.BigEndian
import Fantastic.Foundation.Value
import Mathlib.Data.List.Basic

/-!
# Decoding a frame

`decode_frame` and `set_path` of `io_bridge/_codec.py`. `none` is an exception of any kind.
`json.loads` and `int` of a text are parameters.
-/

namespace Fantastic.Python

structure Decoder where
  loads : String → Option Value
  toInt : String → Option Int

/-- What a socket hands over: a text frame or a binary one. -/
inductive Message where
  | text (text : String)
  | binary (data : Bytes)
  deriving DecidableEq

/-- The place that `items[index]` names. -/
def position (length : Nat) (index : Int) : Option Nat :=
  if 0 ≤ index then if index < length then some index.toNat else none
  else if 0 ≤ length + index then some (length + index).toNat
  else none

/-- `obj[key] = value` on a dictionary. -/
def assign (members : List (String × Value)) (key : String) (value : Value) :
    List (String × Value) :=
  if members.any fun member => member.1 = key then
    members.map fun member => if member.1 = key then (key, value) else member
  else members ++ [(key, value)]

/-- `set_path`, with the path split at its dots. -/
def setPath (toInt : String → Option Int) (value : Value) : List String → Value → Option Value
  | [], _ => none
  | [last], obj =>
    match obj with
    | .list items =>
      ((toInt last).bind (position items.length)).map fun index =>
        .list (items.set index value)
    | .dict members => some (.dict (assign members last value))
    | _ => none
  | part :: next :: rest, obj =>
    match obj with
    | .list items =>
      ((toInt part).bind (position items.length)).bind fun index =>
        (items[index]?.bind (setPath toInt value (next :: rest))).map fun inner =>
          .list (items.set index inner)
    | .dict members =>
      ((members.lookup part).bind (setPath toInt value (next :: rest))).map fun inner =>
        .dict (assign members part inner)
    | _ => none

/-- The header of a binary frame, with the body put back where it says. -/
def restoreBody (decoder : Decoder) (body : Bytes) : Value → Option Value
  | .dict members =>
    let head := members.filter fun member => decide (member.1 ≠ "_binary_path")
    match members.lookup "_binary_path" with
    | none => some (.dict head)
    | some .null => some (.dict head)
    | some (.str path) =>
      setPath decoder.toInt (.bytes body) ((path.toList.splitOn '.').map String.ofList)
        (.dict head)
    | some _ => none
  | _ => none

/-- `decode_frame`. -/
def decodeFrame (decoder : Decoder) : Message → Option Value
  | .text text => decoder.loads text
  | .binary data => do
      let size ← beValue data
      let header ← String.fromUTF8? ((data.drop 4).take size).toByteArray
      restoreBody decoder (data.drop (4 + size)) (← decoder.loads header)

end Fantastic.Python
