import Fantastic.Python.FrameEncoder

/-!
# Kernel frames in the frontend

`decodeFrame` of `ts/src/transport/frame.ts`. What `JSON.parse` and `TextDecoder` do is a
parameter, as is the index that `Number` reads. `none` is an exception, and so is an array that
would grow.
-/

namespace Fantastic.Ts

open Python (Carriable Enclosed FrameCodec Message frameParts framed_split_at)
open Value (findBlob)

structure Js where
  parse : String → Option Value
  decodeUtf8 : Bytes → String
  index : String → Option Nat

def isUnsafeKey (key : String) : Bool :=
  key = "__proto__" || key = "constructor" || key = "prototype"

/-- The entry that `cur[part]` stands for is the one of Python's `set_path`. -/
def Js.toInt (js : Js) (part : String) : Option Int :=
  (js.index part).map Int.ofNat

def setPath (js : Js) (value : Value) (parts : List String) (obj : Value) : Option Value :=
  if parts.any isUnsafeKey then some obj else Python.setPath js.toInt value parts obj

def decodeFrame (js : Js) : Message → Option Value
  | .text text => js.parse text
  | .binary data => do
    let size ← beValue data
    if data.length < 4 + size then none
    else
      match ← js.parse (js.decodeUtf8 ((data.drop 4).take size)) with
      | .null => none
      | .dict members =>
        let head := .dict (members.filter fun member => decide (member.1 ≠ "_binary_path"))
        match members.lookup "_binary_path" with
        | some (.str path) =>
          setPath js (.bytes (data.drop (4 + size))) ((path.toList.splitOn '.').map String.ofList)
            head
        | _ => some head
      | other => some other

def chunkJs : Js where
  parse _ := some Python.chunkHead
  decodeUtf8 _ := Python.chunkCodec.dumps .null
  index text := some (Nat.ofDigitChars 10 text.toList 0)

/-- The frame of `chunk`. -/
def chunkWire : Bytes :=
  [0, 0, 0, 42] ++ utf8 (Python.chunkCodec.dumps .null) ++ [255, 0]

end Fantastic.Ts
