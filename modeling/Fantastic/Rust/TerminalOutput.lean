import Fantastic.Foundation.StreamUtf8
import Fantastic.Rust.TerminalFlow
import Mathlib.Data.Nat.Find

/-!
# The output of a Rust terminal

What `reader_loop` of `fantastic-terminal-backend` makes of the bytes of the child. Each read
is decoded into a string with room for its length and 16 bytes more; what `decode_to_string`
returns is dropped. The flow control of the loop only delays a read and is left out here, so
is the scrollback.

The decoder is that of `encoding_rs`, made by `UTF_8.new_decoder()`, which looks for a byte
order mark. It stops when the room could overflow and says how many bytes it has read.
-/

namespace Fantastic.Rust.Terminal

/-- `READ_CHUNK_BYTES`. -/
def readChunkBytes : Nat := 8192

/-- The room of `String::with_capacity(chunk.len() + 16)`. -/
def spareCapacity (chunk : List UInt8) : Nat := chunk.length + 16

inductive CoderResult where
  | inputEmpty
  | outputFull
  deriving DecidableEq

/-- What `decode_to_string` returns, and what it appends. -/
structure Decoded where
  result : CoderResult
  read : Nat
  out : String

def utf8Mark : List UInt8 := [0xEF, 0xBB, 0xBF]

/-- The stream is taken for UTF-16. -/
def Utf16Mark (bytes : List UInt8) : Prop :=
  [0xFE, 0xFF] <+: bytes ∨ [0xFF, 0xFE] <+: bytes

/-- The text of the bytes for a decoder that takes off a UTF-8 mark and waits for the second
byte of a UTF-16 mark. -/
def sniffed (bytes : List UInt8) : List Char :=
  if utf8Mark <+: bytes then decodeStream (bytes.drop utf8Mark.length)
  else if bytes = [0xFE] ∨ bytes = [0xFF] then []
  else decodeStream bytes

/-- `encoding_rs::Decoder`. A call depends on the bytes that were read before, its source and
the room. -/
structure Decoder where
  decodeToString : List UInt8 → List UInt8 → Nat → Decoded
  /-- `InputEmpty` means that the source is read whole, `OutputFull` that it is not. -/
  reports : ∀ consumed src spare,
    (decodeToString consumed src spare).read ≤ src.length ∧
      ((decodeToString consumed src spare).result = .inputEmpty ↔
        (decodeToString consumed src spare).read = src.length)
  /-- The string does not grow beyond its room. -/
  fits : ∀ consumed src spare, byteLength (decodeToString consumed src spare).out ≤ spare
  /-- What is put out is the text of the bytes that are read. -/
  incremental : ∀ consumed src spare,
    ¬ Utf16Mark (consumed ++ src.take (decodeToString consumed src spare).read) →
      sniffed consumed ++ (decodeToString consumed src spare).out.toList =
        sniffed (consumed ++ src.take (decodeToString consumed src spare).read)

/-- The buffer of a read is no larger. -/
structure Chunk where
  bytes : List UInt8
  small : bytes.length ≤ readChunkBytes

/-- How a turn of the loop ends: with the bytes of a read, with a failed read or a failed
join, or with the terminal gone while the reader was parked. -/
inductive Turn where
  | chunk (chunk : Chunk)
  | readError
  | joinError (error : String)
  | removed

/-- The events of the terminal. -/
inductive Event where
  | output (data : String)
  | error (error : String)
  | closed

def Event.data : Event → List Char
  | .output data => data.toList
  | .error _ => []
  | .closed => []

/-- The loop: what its decoder has read, what it has emitted, and all bytes of its reads. -/
structure Reader where
  consumed : List UInt8
  events : List Event
  bytes : List UInt8
  returned : Bool

namespace Reader

def fresh : Reader where
  consumed := []
  events := []
  bytes := []
  returned := false

/-- `cleanup_on_exit`, after which the loop returns. -/
def cleanupOnExit (reader : Reader) : Reader :=
  { reader with
    events := reader.events ++ [.closed]
    returned := true }

/-- A chunk that is not empty is decoded, and the text emitted if there is any. -/
def decode (decoder : Decoder) (reader : Reader) (chunk : List UInt8) : Reader :=
  let decoded := decoder.decodeToString reader.consumed chunk (spareCapacity chunk)
  { reader with
    consumed := reader.consumed ++ chunk.take decoded.read
    bytes := reader.bytes ++ chunk
    events :=
      if decoded.out.isEmpty then reader.events else reader.events ++ [.output decoded.out] }

def step (decoder : Decoder) (reader : Reader) (turn : Turn) : Reader :=
  if reader.returned then reader
  else
    match turn with
    | .chunk chunk =>
      if chunk.bytes.isEmpty then reader.cleanupOnExit else reader.decode decoder chunk.bytes
    | .readError => reader.cleanupOnExit
    | .joinError error =>
      { reader with
        events := reader.events ++ [Event.error ("read join: " ++ error)] }.cleanupOnExit
    | .removed => { reader with returned := true }

def run (decoder : Decoder) (reader : Reader) (turns : List Turn) : Reader :=
  turns.foldl (step decoder) reader

/-- The data of all `output` events. -/
def output (reader : Reader) : List Char :=
  reader.events.flatMap Event.data

end Reader

/-- The output events are the lossy decoding of what was read. -/
def Lossless (reader : Reader) : Prop :=
  reader.output = decodeStream reader.bytes

/-- The bytes begin with no mark and are not a first byte of one that UTF-8 does not have. -/
def Unmarked (bytes : List UInt8) : Prop :=
  ¬ utf8Mark <+: bytes ∧ ¬ Utf16Mark bytes ∧ bytes ≠ [0xFE] ∧ bytes ≠ [0xFF]

/-- The decoder reads the chunk whole, in a stream without a byte order mark. -/
def ReadWhole (decoder : Decoder) (reader : Reader) : Turn → Prop
  | .chunk chunk =>
    (decoder.decodeToString reader.consumed chunk.bytes (spareCapacity chunk.bytes)).result =
        .inputEmpty ∧
      Unmarked (reader.bytes ++ chunk.bytes)
  | .readError => True
  | .joinError _ => True
  | .removed => True

/-- Every turn of a run is read whole. -/
def AllWhole (decoder : Decoder) : Reader → List Turn → Prop
  | _, [] => True
  | reader, turn :: turns =>
    ReadWhole decoder reader turn ∧ AllWhole decoder (reader.step decoder turn) turns

theorem sniffed_unmarked {bytes : List UInt8} (unmarked : Unmarked bytes) :
    sniffed bytes = decodeStream bytes := by
  obtain ⟨noMark, -, notBig, notLittle⟩ := unmarked
  unfold sniffed
  rw [if_neg noMark, if_neg (not_or.mpr ⟨notBig, notLittle⟩)]

/-- The decoder has read all bytes, and its text has gone out. -/
structure InStep (reader : Reader) : Prop where
  consumed : reader.consumed = reader.bytes
  sniffed : sniffed reader.bytes = decodeStream reader.bytes
  lossless : Lossless reader

section

variable {decoder : Decoder} {reader : Reader}

theorem InStep.fresh : InStep .fresh where
  consumed := rfl
  sniffed := by
    unfold Terminal.sniffed
    rw [if_neg (by decide), if_neg (by decide)]
  lossless := by
    unfold Lossless
    simp [Reader.output, Reader.fresh, decodeStream]

theorem InStep.cleanupOnExit (inStep : InStep reader) : InStep reader.cleanupOnExit := by
  refine ⟨inStep.consumed, inStep.sniffed, ?_⟩
  unfold Lossless Reader.output Reader.cleanupOnExit
  rw [List.flatMap_append]
  exact (List.append_nil _).trans inStep.lossless

/-- The text of a chunk is at the end of the output, also where nothing is emitted. -/
theorem output_decode (decoder : Decoder) (reader : Reader) (chunk : List UInt8) :
    (reader.decode decoder chunk).output =
      reader.output ++
        (decoder.decodeToString reader.consumed chunk (spareCapacity chunk)).out.toList := by
  unfold Reader.output Reader.decode
  dsimp only
  split
  case isTrue empty =>
      rw [String.isEmpty_iff.mp empty]
      exact (List.append_nil _).symm
  case isFalse =>
      rw [List.flatMap_append]
      simp [Event.data]

theorem InStep.decode (inStep : InStep reader) (chunk : Chunk)
    (whole : ReadWhole decoder reader (.chunk chunk)) :
    InStep (reader.decode decoder chunk.bytes) := by
  obtain ⟨empty, unmarked⟩ := whole
  have all := ((decoder.reports _ _ _).2.mp empty)
  have text := decoder.incremental reader.consumed chunk.bytes (spareCapacity chunk.bytes)
  rw [all, List.take_length, inStep.consumed] at text
  have decoded := sniffed_unmarked unmarked
  constructor
  · unfold Reader.decode
    dsimp only
    rw [all, List.take_length, inStep.consumed]
  · exact decoded
  · unfold Lossless
    rw [output_decode, inStep.lossless, inStep.consumed, ← inStep.sniffed, text unmarked.2.1]
    exact decoded

theorem InStep.step (inStep : InStep reader) (turn : Turn)
    (whole : ReadWhole decoder reader turn) : InStep (reader.step decoder turn) := by
  unfold Reader.step
  split
  case isTrue => exact inStep
  case isFalse =>
      cases turn with
      | chunk chunk =>
        dsimp only
        split
        · exact inStep.cleanupOnExit
        · exact inStep.decode chunk whole
      | readError => exact inStep.cleanupOnExit
      | joinError error =>
        apply InStep.cleanupOnExit
        refine ⟨inStep.consumed, inStep.sniffed, ?_⟩
        unfold Lossless Reader.output
        rw [List.flatMap_append]
        exact (List.append_nil _).trans inStep.lossless
      | removed => exact ⟨inStep.consumed, inStep.sniffed, inStep.lossless⟩

theorem InStep.run (turns : List Turn) : ∀ reader, InStep reader →
    AllWhole decoder reader turns → InStep (reader.run decoder turns) := by
  induction turns with
  | nil =>
    intro reader inStep _
    exact inStep
  | cons turn turns ih =>
    intro reader inStep whole
    exact ih _ (inStep.step turn whole.1) whole.2

end

/-- While the decoder reads every chunk whole, in a stream without a mark, the output is the
lossy decoding of the bytes read, however they were split. -/
theorem output_lossless (decoder : Decoder) (turns : List Turn)
    (whole : AllWhole decoder .fresh turns) : Lossless (Reader.fresh.run decoder turns) :=
  (InStep.run turns .fresh .fresh whole).lossless

/-! ### A decoder -/

theorem byteLength_append (first second : List Char) :
    byteLength (String.ofList (first ++ second)) =
      byteLength (String.ofList first) + byteLength (String.ofList second) := by
  unfold byteLength
  rw [String.ofList_append, String.utf8ByteSize_append]

/-- A byte comes to three bytes of text at most. -/
theorem byteLength_decodeStream_le (bytes : List UInt8) :
    byteLength (String.ofList (decodeStream bytes)) ≤ 3 * bytes.length := by
  have single (char : Char) : byteLength (String.ofList [char]) = char.utf8Size := by
    unfold byteLength
    exact String.utf8ByteSize_singleton
  have three : replacementChar.utf8Size = 3 := by decide
  fun_induction decodeStream bytes with
  | case1 => exact Nat.zero_le _
  | case2 lead rest char decoded ih =>
    have whole := ((decodeChar_eq_some_iff _ _).mp decoded).length_le
    rw [← List.singleton_append, byteLength_append, single]
    rw [String.length_utf8EncodeChar] at whole
    rw [List.length_drop] at ih
    rw [List.length_cons] at whole ⊢
    omega
  | case3 lead rest decoded pending => exact Nat.zero_le _
  | case4 lead rest decoded decided ih =>
    rw [← List.singleton_append, byteLength_append, single, three]
    rw [List.length_drop] at ih
    rw [List.length_cons]
    omega

/-- The beginning of a mark is the beginning of a character. -/
theorem decodeStream_mark (count : Nat) (short : count < utf8Mark.length) :
    decodeStream (utf8Mark.take count) = [] := by
  have undecodable := cut_char_undecodable '\uFEFF' count short
  have pending : ∀ count < 2, Pending 0xEF ((utf8Mark.drop 1).take count) := by decide
  cases count with
  | zero => rw [List.take_zero, decodeStream]
  | succ count =>
    change decodeStream (0xEF :: (utf8Mark.drop 1).take count) = []
    rw [decodeStream]
    change ((0xEF :: (utf8Mark.drop 1).take count).toByteArray).utf8DecodeChar? 0 = none
      at undecodable
    rw [undecodable]
    dsimp only
    rw [if_pos (pending count (Nat.lt_of_succ_lt_succ short))]

theorem sniffed_prefix (bytes more : List UInt8) : sniffed bytes <+: sniffed (bytes ++ more) := by
  by_cases marked : utf8Mark <+: bytes
  · have after : utf8Mark <+: bytes ++ more := marked.trans (List.prefix_append bytes more)
    unfold sniffed
    rw [if_pos marked, if_pos after, List.drop_append_of_le_length marked.length_le]
    exact decodeStream_prefix _ more
  by_cases waiting : bytes = [0xFE] ∨ bytes = [0xFF]
  · have nothing : sniffed bytes = [] := by
      unfold sniffed
      rw [if_neg marked, if_pos waiting]
    rw [nothing]
    exact List.nil_prefix
  have begun : sniffed bytes = decodeStream bytes := by
    unfold sniffed
    rw [if_neg marked, if_neg waiting]
  rw [begun]
  by_cases later : utf8Mark <+: bytes ++ more
  · -- the mark is not whole yet, so nothing is out
    have short : bytes.length < utf8Mark.length := by
      apply Nat.lt_of_not_le
      intro long
      exact marked (List.prefix_of_prefix_length_le later (List.prefix_append bytes more) long)
    have cut := List.prefix_of_prefix_length_le (List.prefix_append bytes more) later
      (Nat.le_of_lt short)
    rw [List.prefix_iff_eq_take.mp cut, decodeStream_mark _ short]
    exact List.nil_prefix
  unfold sniffed
  rw [if_neg later]
  split
  case isFalse => exact decodeStream_prefix bytes more
  case isTrue one =>
      have empty : bytes = [] := by
        cases one with
        | inl big =>
          cases List.append_eq_singleton_iff.mp big with
          | inl none => exact none.1
          | inr all => exact absurd (.inl all.1) waiting
        | inr little =>
          cases List.append_eq_singleton_iff.mp little with
          | inl none => exact none.1
          | inr all => exact absurd (.inr all.1) waiting
      have nothing : decodeStream bytes = [] := by
        rw [empty, decodeStream]
      exact List.prefix_nil.mpr nothing

/-- The text of `count` more bytes has room. -/
def HasRoom (consumed src : List UInt8) (spare count : Nat) : Prop :=
  byteLength (String.ofList (sniffed (consumed ++ src.take count))) ≤
    byteLength (String.ofList (sniffed consumed)) + spare

instance (consumed src : List UInt8) (spare : Nat) : DecidablePred (HasRoom consumed src spare) :=
  fun _ => inferInstanceAs (Decidable (_ ≤ _))

/-- What the bytes after `consumed` add to the text. -/
def added (consumed src : List UInt8) : List Char :=
  (sniffed (consumed ++ src)).drop (sniffed consumed).length

theorem sniffed_added (consumed src : List UInt8) :
    sniffed consumed ++ added consumed src = sniffed (consumed ++ src) := by
  obtain ⟨rest, split⟩ := sniffed_prefix consumed src
  unfold added
  rw [← split, List.drop_left]

/-- A decoder that reads as far as its room goes. -/
def Decoder.greedy : Decoder where
  decodeToString consumed src spare :=
    let read := Nat.findGreatest (HasRoom consumed src spare) src.length
    { result := if read = src.length then .inputEmpty else .outputFull
      read := read
      out := String.ofList (added consumed (src.take read)) }
  reports consumed src spare := by
    refine ⟨Nat.findGreatest_le _, ?_⟩
    dsimp only
    split
    case isTrue all => exact iff_of_true rfl all
    case isFalse rest => exact iff_of_false CoderResult.noConfusion rest
  fits consumed src spare := by
    have none : HasRoom consumed src spare 0 := by
      unfold HasRoom
      rw [List.take_zero, List.append_nil]
      exact Nat.le_add_right _ _
    have room := Nat.findGreatest_spec (Nat.zero_le src.length) none
    unfold HasRoom at room
    rw [← sniffed_added, byteLength_append] at room
    exact Nat.le_of_add_le_add_left room
  incremental consumed src spare _ := by
    dsimp only
    rw [String.toList_ofList, sniffed_added]

/-- A few bytes are read whole. -/
theorem Decoder.greedy_whole (consumed src : List UInt8)
    (few : 3 * (consumed.length + src.length) ≤ spareCapacity src)
    (unmarked : Unmarked (consumed ++ src)) :
    (Decoder.greedy.decodeToString consumed src (spareCapacity src)).result = .inputEmpty := by
  have room : HasRoom consumed src (spareCapacity src) src.length := by
    have bound := byteLength_decodeStream_le (consumed ++ src)
    rw [List.length_append] at bound
    unfold HasRoom
    rw [List.take_length, sniffed_unmarked unmarked]
    omega
  rw [(Decoder.greedy.reports _ _ _).2]
  apply Nat.le_antisymm (Nat.findGreatest_le _)
  exact Nat.le_findGreatest (Nat.le_refl _) room

/-- Two reads that split U+4E00, and the end of the child. -/
def splitCharacter : List Turn :=
  [.chunk { bytes := [0xE4, 0xB8], small := by decide },
    .chunk { bytes := [0x80, 0x41], small := by decide }, .readError]

theorem split_character_lossless : Lossless (Reader.fresh.run .greedy splitCharacter) := by
  apply output_lossless
  have unmarked : Unmarked [0xE4, 0xB8] ∧ Unmarked [0xE4, 0xB8, 0x80, 0x41] := by
    unfold Unmarked Utf16Mark
    decide
  have first : ReadWhole .greedy .fresh (.chunk { bytes := [0xE4, 0xB8], small := by decide }) :=
    ⟨Decoder.greedy_whole [] [0xE4, 0xB8] (by decide) unmarked.1, unmarked.1⟩
  have begun := InStep.fresh.step _ first
  refine ⟨first, ⟨?_, unmarked.2⟩, True.intro, True.intro⟩
  rw [begun.consumed]
  exact Decoder.greedy_whole [0xE4, 0xB8] [0x80, 0x41] (by decide) unmarked.2

/-! ### A flood of malformed bytes -/

theorem decodeStream_flood (count : Nat) :
    decodeStream (List.replicate count 0xFF) = List.replicate count replacementChar := by
  induction count with
  | zero => rw [List.replicate_zero, List.replicate_zero, decodeStream]
  | succ count ih =>
    rw [List.replicate_succ, decodeStream_malformed (by decide) (by decide), ih,
      List.replicate_succ]

theorem byteLength_flood (count : Nat) :
    byteLength (String.ofList (List.replicate count replacementChar)) = 3 * count := by
  induction count with
  | zero => rfl
  | succ count ih =>
    have three : byteLength (String.ofList [replacementChar]) = 3 := by decide
    rw [List.replicate_succ, ← List.singleton_append, byteLength_append, ih, three]
    omega

/-- A chunk of more than eight bytes 0xFF has no room for its replacement characters. -/
theorem flood_lost (decoder : Decoder) (chunk : Chunk) {count : Nat} (many : 8 < count)
    (malformed : chunk.bytes = List.replicate count 0xFF) :
    ¬ Lossless (Reader.fresh.run decoder [.chunk chunk]) := by
  have nonempty : ¬ chunk.bytes.isEmpty = true := by
    rw [malformed, List.isEmpty_replicate]
    simp
    omega
  have read : Reader.fresh.run decoder [.chunk chunk] =
      Reader.fresh.decode decoder chunk.bytes := by
    change Reader.fresh.step decoder (.chunk chunk) = _
    unfold Reader.step
    rw [if_neg (by decide)]
    dsimp only
    rw [if_neg nonempty]
  intro lossless
  rw [read] at lossless
  unfold Lossless at lossless
  rw [output_decode] at lossless
  have room := decoder.fits Reader.fresh.consumed chunk.bytes (spareCapacity chunk.bytes)
  have text := congrArg (fun chars => byteLength (String.ofList chars)) lossless
  change byteLength (String.ofList ([] ++ _)) =
    byteLength (String.ofList (decodeStream chunk.bytes)) at text
  rw [List.nil_append, String.ofList_toList] at text
  rw [text] at room
  unfold spareCapacity at room
  rw [malformed, decodeStream_flood, byteLength_flood, List.length_replicate] at room
  omega

/-- A full read of bytes 0xFF. -/
def flood : Chunk where
  bytes := List.replicate readChunkBytes 0xFF
  small := Nat.le_of_eq List.length_replicate

theorem flood_is_not_lossless :
    ¬ ∀ decoder turns, Lossless (Reader.fresh.run decoder turns) := by
  intro lossless
  exact flood_lost .greedy flood (by decide) rfl (lossless .greedy [.chunk flood])

end Fantastic.Rust.Terminal
