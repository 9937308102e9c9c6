import Fantastic.Rust.WebSurface

/-!
# Binary calls and the server that receives them

The frame a bridge client builds for a call with a body, and what becomes of it. The
read loop of the Rust bridge takes the inner payload out of the envelope before it
dispatches; the web surface dispatches the envelope itself.
-/

namespace Fantastic.Rust

open Fantastic.Bridge (Action)

variable {serde : Serde} {client : Nat} {connection : Connection}
variable {target : String} {inner envelope : Value} {body : Bytes}

/-- The envelope of `forward_core` for a binary call, with the egress credential. -/
def forwardEnvelope (corr target : String) (inner : Value) (token : Option String) : Value :=
  object ([("type", .str "call"), ("id", .str corr), ("target", .str target), ("payload", inner)] ++
    token.toList.map (fun secret => ("auth_token", .str secret)) ++
    [("_binary_path", .str "payload.bytes")])

/-- The head of the TypeScript `encodeFrame` for `Bridge.call`, where `inner` is the
payload with its one bytes value nulled. -/
def encodeFrameHead (id target : String) (inner : Value) : Value :=
  object [("type", .str "call"), ("target", .str target), ("payload", inner), ("id", .str id),
    ("_binary_path", .str "payload.bytes")]

/-- The envelopes bridge clients make for a binary call. -/
inductive CallEnvelope (target : String) (inner : Value) : Value → Prop where
  | forward (corr : String) (token : Option String) :
      CallEnvelope target inner (forwardEnvelope corr target inner token)
  | encodeFrame (id : String) : CallEnvelope target inner (encodeFrameHead id target inner)

theorem CallEnvelope.target_field (made : CallEnvelope target inner envelope) :
    asStr (field envelope "target") = some target := by
  cases made <;> rfl

theorem CallEnvelope.payload_field (made : CallEnvelope target inner envelope) :
    field envelope "payload" = some inner := by
  cases made <;> rfl

theorem CallEnvelope.not_chunked (made : CallEnvelope target inner envelope) :
    asStr (field envelope "upload_id") = none := by
  cases made with
  | forward corr token => cases token <;> rfl
  | encodeFrame id => rfl

/-- A member of an object is a smaller term, so no object is its own member. -/
theorem ne_of_field {value member : Value} {name : String} (held : field value name = some member) :
    value ≠ member := by
  intro same
  cases value with
  | dict members =>
    rcases List.lookup_eq_some_iff.mp held with ⟨before, after, split, _⟩
    have listed : (name, member) ∈ members := by simp [split]
    have smaller := List.sizeOf_lt_of_mem listed
    rw [← same] at smaller
    simp only [Prod.mk.sizeOf_spec, Value.dict.sizeOf_spec] at smaller
    omega
  | _ => simp [field] at held

/-! ### The web surface -/

/-- A header short enough for its length prefix is read back, and dispatched whole. -/
theorem handleBinaryFrame_fits (made : CallEnvelope target inner envelope)
    (parses : serde.fromSlice (serde.toVec envelope) = some envelope)
    (fits : (serde.toVec envelope).length < 2 ^ 32) (small : body.length ≤ maxChunkSize) :
    (handleBinaryFrame serde client connection (encodeBinaryFrame serde envelope body)).2 =
      [.sendWithBinary (clientId client) target envelope body] := by
  have size : beValue (encodeBinaryFrame serde envelope body) =
      some (serde.toVec envelope).length := by
    rw [encodeBinaryFrame, beValue_beBytes, Nat.mod_eq_of_lt fits]
  have split := encodeBinaryFrame_split serde envelope body
  simp only [handleBinaryFrame, size, encodeBinaryFrame_length, split, parses]
  rw [if_neg (by omega), if_neg (by omega), made.not_chunked]
  simp [dispatchBinary, made.target_field]

/-- A blob over the cap is refused: no effect touches the kernel. -/
theorem handleBinaryFrame_oversized {bytes : Bytes} {size : Nat} (prefixed : beValue bytes = some size)
    (large : maxChunkSize < bytes.length - (4 + size)) {sender : String} {header : Value}
    {blob : Bytes} :
    Effect.sendWithBinary sender target header blob ∉
      (handleBinaryFrame serde client connection bytes).2 := by
  simp only [handleBinaryFrame, prefixed]
  split
  · simp
  · split
    · simp
    · simp only [List.length_drop]
      rw [if_pos large]
      simp

/-- Whatever the body, the surface never dispatches the inner payload of a binary call. -/
theorem binary_call_never_dispatches_inner (made : CallEnvelope target inner envelope)
    (parses : serde.fromSlice (serde.toVec envelope) = some envelope) (sender : String) :
    Effect.sendWithBinary sender target inner body ∉
      (handleBinaryFrame serde client connection (encodeBinaryFrame serde envelope body)).2 := by
  have prefixed : beValue (encodeBinaryFrame serde envelope body) =
      some ((serde.toVec envelope).length % 2 ^ 32) := by
    rw [encodeBinaryFrame, beValue_beBytes]
  by_cases fits : (serde.toVec envelope).length < 2 ^ 32
  · by_cases small : body.length ≤ maxChunkSize
    · rw [handleBinaryFrame_fits made parses fits small, List.mem_singleton]
      intro same
      exact ne_of_field made.payload_field (Effect.sendWithBinary.inj same).2.2.1.symm
    · apply handleBinaryFrame_oversized prefixed
      rw [encodeBinaryFrame_length, Nat.mod_eq_of_lt fits]
      omega
  · -- the prefix wraps around: what is left of the header counts as blob, past every cap
    apply handleBinaryFrame_oversized prefixed
    have wrapped : (serde.toVec envelope).length % 2 ^ 32 + 2 ^ 32 ≤ (serde.toVec envelope).length := by
      omega
    rw [encodeBinaryFrame_length, maxChunkSize]
    omega

/-! ### The bridge's own read loop -/

inductive CallOutcome where
  | reply (data : Value)
  | sendWithBinary (target : String) (payload : Value) (body : Bytes)
  | send (target : String) (payload : Value)

/-- The `call` branch of `read_loop`, gated by the leg's ingress rule. -/
def readLoopCall (authorize : Action → Bridge.Rust.Decision) (frame : Value) (body : Bytes)
    (isBinary : Bool) : CallOutcome :=
  let target := (asStr (field frame "target")).getD ""
  let inner := (field frame "payload").getD .null
  let decision := authorize
    { kind := .call
      target := target
      verb := (asStr (field inner "type")).getD ""
      payload := .empty
      token := asStr (field frame "auth_token") }
  if target = "" then .reply (object [("error", .str "bridge: empty call target")])
  else
    match decision with
    | .deny reason =>
      .reply (object [("error", .str reason), ("reason", .str "unauthorized")])
    | .allow =>
      if isBinary then .sendWithBinary target inner body else .send target inner

def chunkPayload : Value :=
  object [("type", .str "write_stream"), ("path", .str "a.bin"), ("bytes", .null)]

def chunkEnvelope : Value :=
  forwardEnvelope "hub:1" "files" chunkPayload none

def chunkHeaderText : String :=
  "\x7b\"type\":\"call\",\"id\":\"hub:1\",\"target\":\"files\",\"payload\":\x7b\"type\":" ++
    "\"write_stream\",\"path\":\"a.bin\",\"bytes\":null\x7d,\"_binary_path\":\"payload.bytes\"\x7d"

/-- A serializer that agrees with `serde_json` on the one header at hand. -/
def chunkSerde : Serde where
  toVec := fun _ => utf8 chunkHeaderText
  fromSlice := fun bytes => if bytes = utf8 chunkHeaderText then some chunkEnvelope else none

def quietConnection : Connection where
  host := "chat"
  watching := ["chat"]
  subscriptions := 0
  uploads := .empty

theorem chunkHeader_fits : (chunkSerde.toVec chunkEnvelope).length < 2 ^ 32 := by
  simp only [chunkSerde, utf8_length]
  decide +kernel

theorem chunk_parses : chunkSerde.fromSlice (chunkSerde.toVec chunkEnvelope) = some chunkEnvelope := by
  simp [chunkSerde]

theorem chunk_never_dispatched_as_sent :
    chunkSerde.fromSlice (chunkSerde.toVec chunkEnvelope) = some chunkEnvelope ∧
      Effect.sendWithBinary (clientId 0) "files" chunkPayload [1, 2, 3] ∉
        (handleBinaryFrame chunkSerde 0 quietConnection
          (encodeBinaryFrame chunkSerde chunkEnvelope [1, 2, 3])).2 :=
  ⟨chunk_parses, binary_call_never_dispatches_inner (.forward "hub:1" none) chunk_parses _⟩

/-- The handler of `files` gets the call envelope where its `write_stream` should be. -/
theorem chunk_dispatched_as_envelope :
    (handleBinaryFrame chunkSerde 0 quietConnection
        (encodeBinaryFrame chunkSerde chunkEnvelope [1, 2, 3])).2 =
      [.sendWithBinary (clientId 0) "files" chunkEnvelope [1, 2, 3]] ∧
    chunkEnvelope ≠ chunkPayload := by
  have held : field chunkEnvelope "payload" = some chunkPayload := rfl
  refine ⟨?_, ne_of_field held⟩
  exact handleBinaryFrame_fits (.forward "hub:1" none) chunk_parses chunkHeader_fits (by decide)

end Fantastic.Rust
