import Fantastic.Foundation.Utf8
import Fantastic.Foundation.ValuePlaces
import Fantastic.Python.FrameCodec

/-!
# Encoding a frame

`find_bytes_path` and `encode_frame` of `io_bridge/_codec.py`, and the frame that a socket
takes. `json.dumps(value, default=str)` is a parameter.
-/

namespace Fantastic.Python

open Value (Place PlainPart findBlob spelled)

structure FrameCodec extends Decoder where
  dumps : Value → String

/-- `find_bytes_path`, its prefix spelled on the way back. -/
def findBytesPath (value : Value) : Option (String × Bytes) :=
  (findBlob value).map fun found => (spelled "" found.1, found.2)

/-- The header of a binary frame. -/
def marked (head : List (String × Value)) (path : String) : Value :=
  .dict (assign head "_binary_path" (.str path))

/-- `struct.pack(">I", len(head_bytes)) + head_bytes + body`. -/
def framed (head : String) (body : Bytes) : Option Bytes :=
  if (utf8 head).length < 2 ^ 32 then some (beBytes (utf8 head).length ++ (utf8 head ++ body))
  else none

/-- What `encode_frame` dumps, and the body that goes behind it. `none` is an exception. -/
def frameParts (toInt : String → Option Int) (envelope : List (String × Value)) :
    Option (Value × Option Bytes) :=
  match findBytesPath (.dict envelope) with
  | none => some (.dict envelope, none)
  | some (path, body) =>
    match setPath toInt .null ((path.toList.splitOn '.').map String.ofList) (.dict envelope) with
    | some (.dict head) => some (marked head path, some body)
    | _ => none

/-- `encode_frame`, with whether the frame is binary. -/
def encodeFrame (codec : FrameCodec) (envelope : List (String × Value)) : Option (Bytes × Bool) :=
  match frameParts codec.toInt envelope with
  | some (value, none) => some (utf8 (codec.dumps value), false)
  | some (value, some body) => (framed (codec.dumps value) body).map (·, true)
  | none => none

/-- The message that a transport makes of an encoded frame. -/
def sentFrame (frame : Bytes × Bool) : Option Message :=
  if frame.2 then some (.binary frame.1)
  else (String.fromUTF8? frame.1.toByteArray).map .text

/-! ### Setting a part in its place -/

theorem lookup_member {key : String} (item : Value) {before after : List (String × Value)}
    (apart : key ∉ (before ++ after).map Prod.fst) :
    (before ++ (key, item) :: after).lookup key = some item := by
  induction before with
  | nil => simp
  | cons member before ih =>
    rw [List.cons_append, List.map_cons, List.mem_cons, not_or] at apart
    rw [List.cons_append, List.lookup_cons, beq_eq_false_iff_ne.mpr apart.1]
    exact ih apart.2

theorem assign_member {key : String} (item value : Value) {before after : List (String × Value)}
    (apart : key ∉ (before ++ after).map Prod.fst) :
    assign (before ++ (key, item) :: after) key value = before ++ (key, value) :: after := by
  have others : ∀ members : List (String × Value), key ∉ members.map Prod.fst →
      (members.map fun member => if member.1 = key then (key, value) else member) = members := by
    intro members absent
    conv_rhs => rw [← List.map_id members]
    apply List.map_congr_left
    intro member listed
    exact if_neg fun same => absent (List.mem_map.mpr ⟨member, listed, same⟩)
  rw [List.map_append, List.mem_append, not_or] at apart
  rw [assign, if_pos (by simp), List.map_append, List.map_cons, others before apart.1,
    others after apart.2, if_pos rfl]

theorem assign_absent {key : String} (value : Value) {members : List (String × Value)}
    (absent : key ∉ members.map Prod.fst) : assign members key value = members ++ [(key, value)] := by
  rw [assign, if_neg]
  simpa using absent

theorem position_length (before after : List Value) (item : Value) :
    position (before ++ item :: after).length (before.length : Int) = some before.length := by
  have inside : (before.length : Int) < (before ++ item :: after).length := by
    simp only [List.length_append, List.length_cons]
    omega
  rw [position, if_pos (Int.natCast_nonneg _), if_pos inside, Int.toNat_natCast]

/-- A value goes to the place of a part and nowhere else. -/
theorem setPath_place {toInt : String → Option Int}
    (numbers : ∀ number : Nat, toInt (toString number) = some (number : Int))
    {parts : List String} {part whole : Value} {fill : Value → Value}
    (place : Place parts part whole fill) (some' : parts ≠ []) (value : Value) :
    setPath toInt value parts whole = some (fill value) := by
  induction place with
  | here => exact absurd rfl some'
  | @item parts part item fill before after below ih =>
    cases parts with
    | nil =>
      cases below
      rw [setPath, numbers, Option.bind_some, position_length, Option.map_some,
        List.set_append_right _ _ (Nat.le_refl _), Nat.sub_self]
      rfl
    | cons next rest =>
      rw [setPath, numbers, Option.bind_some, position_length, Option.bind_some,
        List.getElem?_append_right (Nat.le_refl _), Nat.sub_self, List.getElem?_cons_zero,
        Option.bind_some, ih (List.cons_ne_nil _ _), Option.map_some,
        List.set_append_right _ _ (Nat.le_refl _), Nat.sub_self]
      rfl
  | @member parts part item fill key before after apart below ih =>
    cases parts with
    | nil =>
      cases below
      rw [setPath, assign_member _ _ apart]
      rfl
    | cons next rest =>
      rw [setPath, lookup_member item apart, Option.bind_some, ih (List.cons_ne_nil _ _),
        Option.map_some, assign_member _ _ apart]

/-! ### The round trip -/

/-- An envelope that a binary frame can carry, if it has bytes: no key on the way to them is
empty or dotted, and none is taken for the marker. -/
structure Carriable (envelope : List (String × Value)) : Prop where
  distinct : (Value.dict envelope).Distinct
  plain : ∀ parts body, findBlob (.dict envelope) = some (parts, body) →
    ∀ part ∈ parts, PlainPart part
  unmarked : "_binary_path" ∉ envelope.map Prod.fst

/-- The same envelope with its bytes in a place, and with `null` there instead. -/
structure Enclosed (envelope head : List (String × Value)) (parts : List String) (body : Bytes)
    (fill : Value → Value) : Prop where
  found : findBlob (.dict envelope) = some (parts, body)
  place : Place parts (.bytes body) (.dict envelope) fill
  some' : parts ≠ []
  emptied : fill .null = .dict head
  unmarked : "_binary_path" ∉ head.map Prod.fst
  split : ((spelled "" parts).toList.splitOn '.').map String.ofList = parts

section Enclosed

variable {toInt : String → Option Int} {envelope head : List (String × Value)}
  {parts : List String} {body : Bytes} {fill : Value → Value}

theorem Carriable.enclosed (fine : Carriable envelope)
    (found : findBlob (.dict envelope) = some (parts, body)) :
    ∃ head fill, Enclosed envelope head parts body fill := by
  obtain ⟨fill, place⟩ := Value.place_of_findBlob _ fine.distinct found
  obtain ⟨some', head, emptied, keys⟩ := place.emptied .null
  refine ⟨head, fill, found, place, some', emptied, ?_, ?_⟩
  · rw [keys]
    exact fine.unmarked
  · exact Value.splitOn_spelled some' (fine.plain parts body found)

theorem Enclosed.frameParts_eq (enclosed : Enclosed envelope head parts body fill)
    (numbers : ∀ number : Nat, toInt (toString number) = some (number : Int)) :
    frameParts toInt envelope = some (marked head (spelled "" parts), some body) := by
  rw [frameParts, findBytesPath, enclosed.found, Option.map_some]
  simp only
  rw [enclosed.split, setPath_place numbers enclosed.place enclosed.some', enclosed.emptied]

/-- A decoder takes the marker out again and reads the path in it. -/
theorem Enclosed.unmark (enclosed : Enclosed envelope head parts body fill) :
    ∃ members, marked head (spelled "" parts) = .dict members ∧
      members.lookup "_binary_path" = some (.str (spelled "" parts)) ∧
      members.filter (fun member => decide (member.1 ≠ "_binary_path")) = head := by
  have absent := enclosed.unmarked
  refine ⟨_, congrArg Value.dict (assign_absent _ absent), lookup_member _ (by simpa using absent),
    ?_⟩
  have kept : head.filter (fun member => decide (member.1 ≠ "_binary_path")) = head := by
    rw [List.filter_eq_self]
    intro member listed
    rw [decide_eq_true_eq]
    exact fun same => absent (List.mem_map.mpr ⟨member, listed, same⟩)
  rw [List.filter_append, kept]
  simp

/-- The body goes back to where it was. -/
theorem Enclosed.setPath_head (enclosed : Enclosed envelope head parts body fill)
    (numbers : ∀ number : Nat, toInt (toString number) = some (number : Int)) :
    setPath toInt (.bytes body) parts (.dict head) = some (.dict envelope) := by
  have back := setPath_place numbers (enclosed.place.refilled .null) enclosed.some' (.bytes body)
  rw [enclosed.emptied, enclosed.place.fill_eq] at back
  exact back

end Enclosed

theorem framed_split_at {text : String} {body wire : Bytes} (made : framed text body = some wire) :
    beValue wire = some (utf8 text).length ∧
      (wire.drop 4).take (utf8 text).length = utf8 text ∧
      wire.drop (4 + (utf8 text).length) = body ∧ wire.length = 4 + (utf8 text).length + body.length := by
  unfold framed at made
  split at made
  case isTrue fits =>
    cases made
    refine ⟨?_, (framed_split _ _ body).1, (framed_split _ _ body).2, ?_⟩
    · rw [beValue_beBytes, Nat.mod_eq_of_lt fits]
    · simp only [List.length_append, beBytes_length]
      omega
  case isFalse => cases made

/-- An envelope comes out of the decoder as it went into the encoder, where `json.loads` reads
what `json.dumps` wrote of it. -/
theorem frames_return {codec : FrameCodec} {envelope : List (String × Value)}
    (numbers : ∀ number : Nat, codec.toInt (toString number) = some (number : Int))
    (fine : Carriable envelope)
    (carried : ∀ value body, frameParts codec.toInt envelope = some (value, body) →
      codec.loads (codec.dumps value) = some value ∧ (utf8 (codec.dumps value)).length < 2 ^ 32) :
    ∃ frame, encodeFrame codec envelope = some frame ∧
      (sentFrame frame).bind (decodeFrame codec.toDecoder) = some (.dict envelope) := by
  cases found : findBlob (.dict envelope) with
  | none =>
    have parts : frameParts codec.toInt envelope = some (.dict envelope, none) := by
      rw [frameParts, findBytesPath, found, Option.map_none]
    refine ⟨(utf8 (codec.dumps (.dict envelope)), false), ?_, ?_⟩
    · rw [encodeFrame, parts]
    · simp only [sentFrame, fromUTF8_utf8, Bool.false_eq_true, if_false, Option.map_some,
        Option.bind_some]
      exact (carried _ _ parts).1
  | some blob =>
    obtain ⟨head, fill, enclosed⟩ := fine.enclosed found
    have parts := enclosed.frameParts_eq numbers
    obtain ⟨read, fits⟩ := carried _ _ parts
    obtain ⟨wire, made⟩ :
        ∃ wire, framed (codec.dumps (marked head (spelled "" blob.1))) blob.2 = some wire :=
      ⟨_, if_pos fits⟩
    obtain ⟨size, front, back, -⟩ := framed_split_at made
    obtain ⟨members, shape, path, rest⟩ := enclosed.unmark
    refine ⟨(wire, true), ?_, ?_⟩
    · rw [encodeFrame, parts]
      simp only [made, Option.map_some]
    · simp only [sentFrame, if_true, Option.bind_some, decodeFrame, size, front, back,
        fromUTF8_utf8, read, bind]
      rw [shape]
      simp only [restoreBody, path, rest, enclosed.split]
      exact enclosed.setPath_head numbers

/-! ### A frame with a chunk -/

def chunk : List (String × Value) :=
  [("data", .list [.bytes [255, 0]])]

def chunkHead : Value :=
  .dict [("data", .list [.null]), ("_binary_path", .str "data.0")]

/-- A `json` for this header. -/
def chunkCodec : FrameCodec where
  loads _ := some chunkHead
  toInt text := some (Nat.ofDigitChars 10 text.toList 0)
  dumps _ := "\x7b\"data\": [null], \"_binary_path\": \"data.0\"\x7d"

theorem chunk_numbers (number : Nat) :
    chunkCodec.toInt (toString number) = some (number : Int) := by
  simp [chunkCodec, Nat.ofDigitChars_ten_toDigits]

theorem chunk_carriable : Carriable chunk where
  distinct := by simp [chunk, Value.Distinct, Value.DistinctItems, Value.DistinctMembers]
  plain := by
    intro parts body found
    cases found
    simp [PlainPart]
  unmarked := by decide

theorem chunk_parts : frameParts chunkCodec.toInt chunk = some (chunkHead, some [255, 0]) :=
  rfl

theorem chunk_returns :
    ∃ frame, encodeFrame chunkCodec chunk = some frame ∧
      (sentFrame frame).bind (decodeFrame chunkCodec.toDecoder) = some (.dict chunk) := by
  apply frames_return chunk_numbers chunk_carriable
  intro value body parts
  cases chunk_parts.symm.trans parts
  exact ⟨rfl, by decide⟩

end Fantastic.Python
