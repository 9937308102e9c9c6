import Fantastic.Parity.FilePump

/-!
# `read_stream` as a cursor

`_read_stream`, `read_stream_reply` and `readStream` of the three file bridges, for every value
of `offset` and `length` that a payload may bring. The path is a text, the gate is open and a
file does not change during a call. A panic, a trap or an exception that leaves the verb is no
answer.
-/

namespace Fantastic.Parity

open ChunkCopy
open Fantastic.Python (Runtime getD truthy)
open Fantastic.Python.Ai (Numerals intOf)
open Fantastic.Rust (asU64 field)

variable {Name : Type}

/-! ### The verbs -/

/-- A reply and the bytes that go with it. -/
structure Served where
  reply : Value
  body : List UInt8

def Served.refusal (text : String) : Served where
  reply := failed text
  body := []

/-- `read_stream` past its arguments: `seek` may refuse the offset, and no answer comes where
the buffer of the chunk cannot be had. -/
def serve (file : FileEnd Name) (missing : String → String) (seek : Except String Nat)
    (allocates : Bool) (stride : Nat) (reply : Nat → Nat → Chunk → Value) (path : String)
    (files : Files Name) : Option Served :=
  match file.resolve path with
  | .error text => some (.refusal text)
  | .ok place =>
    match files place with
    | none => some (.refusal (missing path))
    | some content =>
      match file.unreadable place, seek with
      | some text, _ => some (.refusal text)
      | none, .error text => some (.refusal text)
      | none, .ok offset =>
        if allocates then
          some { reply := reply content.length offset (chunkAt content offset stride)
                 body := (chunkAt content offset stride).body }
        else none

def streamPath (payload : Dict) : String :=
  (rustText payload "path").getD ""

/-- `int(payload.get(key, default) or default)`. -/
def intArgument (runtime : Runtime) (numerals : Numerals) (payload : Dict) (key : String)
    (default : Nat) : Option Int :=
  let value := getD payload key
  (intOf runtime numerals (if truthy value then value else .int default)).toOption

/-- The reply that carries its bytes itself. -/
def streamReply (path : String) (size offset : Nat) (chunk : Chunk) : Value :=
  .dict [("path", .str path), ("offset", .int offset), ("bytes", .bytes chunk.body),
    ("next_offset", .int chunk.next), ("eof", .bool chunk.last), ("size", .int size)]

/-- `_read_stream`. `seek` refuses what is no file offset; `read` raises for a length that is
too large. -/
def pythonReadStream (runtime : Runtime) (numerals : Numerals) (allocates : Nat → Bool)
    (refuses : Int → String) (file : FileEnd Name) (files : Files Name) (payload : Dict) :
    Option Served :=
  match intArgument runtime numerals payload "offset" 0,
      intArgument runtime numerals payload "length" defaultChunk with
  | some offset, some length =>
    serve file (fun path => "file " ++ runtime.repr (.str path) ++ " not found")
      (if 0 ≤ offset ∧ offset < 2 ^ 63 then .ok offset.toNat else .error (refuses offset))
      (allocates length.toNat) length.toNat
      (streamReply (streamPath payload)) (streamPath payload) files
  | _, _ => none

/-- The header that goes before a raw body. -/
def streamHeader (path : String) (size offset : Nat) (chunk : Chunk) : Value :=
  .dict [("path", .str path), ("offset", .int offset), ("next_offset", .int chunk.next),
    ("eof", .bool chunk.last), ("size", .int size), ("bytes_len", .int chunk.body.length)]

def rustLength (payload : Dict) : Nat :=
  ((asU64 (payload.get? "length")).filter fun length => 0 < length).getD defaultChunk

/-- `read_stream_reply`. One `read` brings no more than `most` bytes. -/
def rustReadStream (debug : String → String) (allocates : Nat → Bool) (refuses : Nat → String)
    (most : Nat) (file : FileEnd Name) (files : Files Name) (payload : Dict) : Option Served :=
  let offset := (asU64 (payload.get? "offset")).getD 0
  serve file (fun path => "file " ++ debug path ++ " not found")
    (if offset < 2 ^ 63 then .ok offset else .error (refuses offset))
    (allocates (rustLength payload)) (min (rustLength payload) most)
    (streamHeader (streamPath payload)) (streamPath payload) files

/-- `header["length"].asInt.map { $0 > 0 ? $0 : 65536 } ?? 65536`. -/
def swiftLength : Option Int → Nat
  | some length => if 0 < length then length.toNat else defaultChunk
  | none => defaultChunk

/-- `readStream`. `UInt64` of a negative offset traps. -/
def swiftReadStream (file : FileEnd Name) (files : Files Name) (payload : Dict) :
    Option Served :=
  match asInt (payload.get? "offset"), asInt (payload.get? "length") with
  | some offset, some length =>
    if offset.getD 0 < 0 then none
    else
      serve file (fun path => "file " ++ path ++ " not found") (.ok (offset.getD 0).toNat) true
        (swiftLength length) (streamHeader (streamPath payload)) (streamPath payload) files
  | _, _ => none

/-! ### What a cursor is for -/

/-- The chunk of the file between the offset and the next one. -/
structure Faithful (payload : Dict) (stride : Nat) (content : List UInt8) (served : Served)
    (offset next : Nat) : Prop where
  named : field served.reply "offset" = some (.int offset)
  goesOn : field served.reply "next_offset" = some (.int next)
  ends : field served.reply "eof" = some (.bool (decide (content.length ≤ next)))
  body : served.body = (content.drop offset).take (next - offset)
  size : offset + served.body.length = next
  bound : next ≤ offset + stride
  asked : ∀ number : Nat, number < 2 ^ 63 → payload.get? "offset" = some (.int number) →
    offset = number
  limit : ∀ number : Nat, 0 < number → number < 2 ^ 63 →
    payload.get? "length" = some (.int number) → next ≤ offset + number

/-- The verb answers, and where it does without an error it serves a chunk of the file. -/
def Answers (file : FileEnd Name) (files : Files Name) (payload : Dict) (stride : Nat)
    (answer : Option Served) : Prop :=
  ∃ served, answer = some served ∧ (field served.reply "error" = none →
    ∃ place content offset next, file.resolve (streamPath payload) = .ok place ∧
      files place = some content ∧ Faithful payload stride content served offset next)

/-- The path leads to a file that can be opened. -/
def Opens (file : FileEnd Name) (files : Files Name) (path : String) : Prop :=
  ∃ place content, file.resolve path = .ok place ∧ files place = some content ∧
    file.unreadable place = none

section Serving

variable {file : FileEnd Name} {files : Files Name} {payload : Dict} {missing : String → String}
  {seek : Except String Nat} {allocates : Bool} {stride limit : Nat}
  {reply : Nat → Nat → Chunk → Value}

theorem Served.refusal_answers (text : String) :
    Answers file files payload stride (some (.refusal text)) := by
  refine ⟨_, rfl, ?_⟩
  intro fine
  simp [Served.refusal, failed, field] at fine

/-- A runtime answers where it can have the buffer of the chunk it is to read. -/
theorem serve_answers_iff (short : stride ≤ limit)
    (header : ∀ size offset chunk, field (reply size offset chunk) "offset" = some (.int offset) ∧
      field (reply size offset chunk) "next_offset" = some (.int (chunk : Chunk).next) ∧
      field (reply size offset chunk) "eof" = some (.bool chunk.last))
    (asked : ∀ offset number : Nat, seek = .ok offset → number < 2 ^ 63 →
      payload.get? "offset" = some (.int number) → offset = number)
    (limited : ∀ number : Nat, 0 < number → number < 2 ^ 63 →
      payload.get? "length" = some (.int number) → stride ≤ number) :
    Answers file files payload limit
        (serve file missing seek allocates stride reply (streamPath payload) files) ↔
      (Opens file files (streamPath payload) → (∃ offset, seek = .ok offset) →
        allocates = true) := by
  unfold serve
  cases led : file.resolve (streamPath payload) with
  | error text =>
    refine iff_of_true (Served.refusal_answers text) ?_
    rintro ⟨place, _, found, _⟩
    rw [led] at found
    cases found
  | ok place =>
    cases held : files place with
    | none =>
      simp only [held]
      refine iff_of_true (Served.refusal_answers _) ?_
      rintro ⟨other, content, found, there, _⟩
      rw [led] at found
      cases found
      rw [held] at there
      cases there
    | some content =>
      cases closed : file.unreadable place with
      | some text =>
        simp only [held, closed]
        refine iff_of_true (Served.refusal_answers text) ?_
        rintro ⟨other, _, found, _, readable⟩
        rw [led] at found
        cases found
        rw [closed] at readable
        cases readable
      | none =>
        cases sought : seek with
        | error text =>
          simp only [held, closed]
          refine iff_of_true (Served.refusal_answers text) ?_
          rintro - ⟨offset, same⟩
          cases same
        | ok offset =>
          simp only [held, closed]
          cases enough : allocates with
          | false =>
            refine iff_of_false ?_ ?_
            · rintro ⟨served, same, _⟩
              cases same
            · intro has
              exact absurd (has ⟨place, content, led, held, closed⟩ ⟨offset, rfl⟩)
                (by simp)
          | true =>
            refine iff_of_true ⟨_, rfl, fun _ => ⟨place, content, offset,
              (chunkAt content offset stride).next, led, held, ?_⟩⟩ fun _ _ => rfl
            have fields := header content.length offset (chunkAt content offset stride)
            refine ⟨fields.1, fields.2.1, ?_, ?_, rfl, ?_, ?_, ?_⟩
            · rw [fields.2.2]
              rfl
            · simp only [chunkAt, Nat.add_sub_cancel_left]
              exact List.prefix_iff_eq_take.mp (List.take_prefix _ _)
            · simp only [chunkAt, List.length_take]
              omega
            · exact fun number => asked offset number sought
            · intro number positive small same
              have narrow := limited number positive small same
              simp only [chunkAt, List.length_take]
              omega

end Serving

/-! ### Following a cursor -/

def cursor (path : String) (offset length : Nat) : Dict where
  entries := [("path", .str path), ("offset", .int offset), ("length", .int length)]
  nodup := (by decide : ["path", "offset", "length"].Nodup)

/-- The chunks of one call after the other, each at the `next_offset` of the one before, until
`eof`. -/
def pages (verb : Dict → Option Served) (path : String) (lengths : Nat → Nat) :
    Nat → Nat → Nat → Option (List UInt8)
  | 0, _, _ => none
  | fuel + 1, offset, index =>
    match verb (cursor path offset (lengths index)) with
    | none => none
    | some served =>
      match field served.reply "next_offset", field served.reply "eof" with
      | some (.int next), some (.bool last) =>
        if last then some served.body
        else (pages verb path lengths fuel next.toNat (index + 1)).map (served.body ++ ·)
      | _, _ => none

/-- Every call on the way serves a chunk of the file that is not empty before its end. -/
def Turns (verb : Dict → Option Served) (path : String) (content : List UInt8)
    (lengths : Nat → Nat) : Prop :=
  ∀ offset index, offset ≤ content.length → ∃ stride served, 0 < stride ∧
    verb (cursor path offset (lengths index)) = some served ∧
    served.body = (content.drop offset).take stride ∧
    field served.reply "next_offset" = some (.int (chunkAt content offset stride).next) ∧
    field served.reply "eof" = some (.bool (chunkAt content offset stride).last)

/-- Lengths that fit bring the whole file in finitely many calls, and nothing else. -/
def Pages (verb : Dict → Option Served) (fits : Nat → Bool) (file : FileEnd Name)
    (files : Files Name) : Prop :=
  ∀ path place content, file.resolve path = .ok place → files place = some content →
    file.unreadable place = none → content.length < 2 ^ 63 → ∀ lengths : Nat → Nat,
      (∀ index, 0 < lengths index ∧ lengths index < 2 ^ 63 ∧ fits (lengths index) = true) →
        (∃ fuel, pages verb path lengths fuel 0 0 = some content) ∧
          ∀ fuel text, pages verb path lengths fuel 0 0 = some text → text = content

section Following

variable {verb : Dict → Option Served} {path : String} {content : List UInt8}
  {lengths : Nat → Nat}

theorem Turns.pages_step (turns : Turns verb path content lengths) {offset : Nat} (index : Nat)
    (inside : offset ≤ content.length) (fuel : Nat) :
    ∃ stride, 0 < stride ∧ pages verb path lengths (fuel + 1) offset index =
      if content.length ≤ offset + stride then some (content.drop offset)
      else (pages verb path lengths fuel (offset + stride) (index + 1)).map
        ((content.drop offset).take stride ++ ·) := by
  obtain ⟨stride, served, positive, answered, body, next, last⟩ := turns offset index inside
  refine ⟨stride, positive, ?_⟩
  simp only [pages, answered, next, last, body, chunkAt_next inside, chunkAt_last inside]
  split
  case isTrue reached =>
    rw [List.take_of_length_le (by rw [List.length_drop]; omega)]
  case isFalse more =>
    rw [Int.toNat_natCast, Nat.min_eq_left (by omega)]

theorem Turns.reads (turns : Turns verb path content lengths) (fuel : Nat) :
    ∀ offset index, offset ≤ content.length → content.length < offset + fuel →
      pages verb path lengths fuel offset index = some (content.drop offset) := by
  induction fuel with
  | zero =>
    intro offset index inside enough
    omega
  | succ fuel ih =>
    intro offset index inside enough
    obtain ⟨stride, positive, step⟩ := turns.pages_step index inside fuel
    rw [step]
    split
    case isTrue => rfl
    case isFalse more =>
      rw [ih _ _ (by omega) (by omega), Option.map_some, ← List.drop_drop,
        List.take_append_drop]

theorem Turns.reads_only (turns : Turns verb path content lengths) (fuel : Nat) :
    ∀ offset index text, offset ≤ content.length →
      pages verb path lengths fuel offset index = some text → text = content.drop offset := by
  induction fuel with
  | zero =>
    intro offset index text _ read
    cases read
  | succ fuel ih =>
    intro offset index text inside read
    obtain ⟨stride, positive, step⟩ := turns.pages_step index inside fuel
    rw [step] at read
    split at read
    case isTrue => exact (Option.some.inj read).symm
    case isFalse more =>
      obtain ⟨rest, later, same⟩ := Option.map_eq_some_iff.mp read
      rw [← same, ih _ _ rest (by omega) later, ← List.drop_drop, List.take_append_drop]

end Following

/-- Calls that serve chunks page through every file. -/
theorem pages_of_turns {verb : Dict → Option Served} {fits : Nat → Bool} {file : FileEnd Name}
    {files : Files Name}
    (turns : ∀ path place content, file.resolve path = .ok place → files place = some content →
      file.unreadable place = none → ∀ offset length : Nat, offset < 2 ^ 63 → 0 < length →
        length < 2 ^ 63 → fits length = true → ∃ stride served, 0 < stride ∧
          verb (cursor path offset length) = some served ∧
          served.body = (content.drop offset).take stride ∧
          field served.reply "next_offset" = some (.int (chunkAt content offset stride).next) ∧
          field served.reply "eof" = some (.bool (chunkAt content offset stride).last)) :
    Pages verb fits file files := by
  intro path place content led held readable small lengths fit
  have each : Turns verb path content lengths := by
    intro offset index inside
    obtain ⟨positive, narrow, enough⟩ := fit index
    exact turns path place content led held readable offset (lengths index) (by omega) positive
      narrow enough
  constructor
  · exact ⟨content.length + 1, each.reads _ 0 0 (by omega) (by omega)⟩
  · exact fun fuel text read => each.reads_only fuel 0 0 text (by omega) read

/-! ### The three runtimes -/

section Runtimes

variable (runtime : Runtime) (numerals : Numerals) (allocates : Nat → Bool)
  (file : FileEnd Name) (files : Files Name)

theorem intArgument_int {payload : Dict} {key : String} {default : Nat} {number : Nat}
    (same : payload.get? key = some (.int number)) (fine : number ≠ 0 ∨ default = 0) :
    intArgument runtime numerals payload key default = some (number : Int) := by
  simp only [intArgument, getD, same, Option.getD_some, truthy, decide_eq_true_eq]
  split
  case isTrue => rfl
  case isFalse zero =>
    have none : number = 0 := by omega
    have gone : default = 0 := by omega
    rw [none, gone]
    rfl

/-- Python answers where `int` takes both arguments and `read` can have its buffer. -/
theorem pythonReadStream_answers_iff (refuses : Int → String) (payload : Dict) :
    Answers file files payload
        ((intArgument runtime numerals payload "length" defaultChunk).getD 0).toNat
        (pythonReadStream runtime numerals allocates refuses file files payload) ↔
      ∃ offset length, intArgument runtime numerals payload "offset" 0 = some offset ∧
        intArgument runtime numerals payload "length" defaultChunk = some length ∧
        (Opens file files (streamPath payload) → 0 ≤ offset ∧ offset < 2 ^ 63 →
          allocates length.toNat = true) := by
  unfold pythonReadStream
  cases first : intArgument runtime numerals payload "offset" 0 with
  | none =>
    refine iff_of_false ?_ ?_
    · rintro ⟨_, none, _⟩
      cases none
    · rintro ⟨_, _, none, _⟩
      cases none
  | some offset =>
    cases second : intArgument runtime numerals payload "length" defaultChunk with
    | none =>
      refine iff_of_false ?_ ?_
      · rintro ⟨_, none, _⟩
        cases none
      · rintro ⟨_, _, _, none, _⟩
        cases none
    | some length =>
      simp only [Option.getD_some]
      rw [serve_answers_iff (Nat.le_refl _) (fun _ _ _ => ⟨rfl, rfl, rfl⟩)]
      · constructor
        · intro enough
          refine ⟨offset, length, rfl, rfl, ?_⟩
          intro opens inside
          exact enough opens ⟨_, if_pos inside⟩
        · rintro ⟨other, size, same, again, enough⟩ opens ⟨place, sought⟩
          cases same
          cases again
          apply enough opens
          by_contra outside
          rw [if_neg outside] at sought
          cases sought
      · intro place number sought small same
        have read := intArgument_int runtime numerals same (.inr rfl)
        rw [first] at read
        cases read
        rw [if_pos (by omega)] at sought
        cases sought
        rfl
      · intro number positive small same
        have read := @intArgument_int runtime numerals _ _ defaultChunk _ same
          (.inl (by omega))
        rw [second] at read
        cases read
        simp

theorem asU64_nat {number : Nat} (small : number < 2 ^ 63) :
    asU64 (some (.int number)) = some number := by
  simp only [asU64]
  rw [if_pos (by omega), Int.toNat_natCast]

/-- Rust answers where the vector of the chunk can be had. -/
theorem rustReadStream_answers_iff (debug : String → String) (refuses : Nat → String)
    (most : Nat) (payload : Dict) :
    Answers file files payload (rustLength payload)
        (rustReadStream debug allocates refuses most file files payload) ↔
      (Opens file files (streamPath payload) → (asU64 (payload.get? "offset")).getD 0 < 2 ^ 63 →
        allocates (rustLength payload) = true) := by
  unfold rustReadStream
  simp only
  rw [serve_answers_iff (Nat.min_le_left _ _) (fun _ _ _ => ⟨rfl, rfl, rfl⟩)]
  · constructor
    · intro enough opens inside
      exact enough opens ⟨_, if_pos inside⟩
    · rintro enough opens ⟨place, sought⟩
      apply enough opens
      by_contra outside
      rw [if_neg outside] at sought
      cases sought
  · intro place number sought small same
    rw [same, asU64_nat small, Option.getD_some, if_pos small] at sought
    cases sought
    rfl
  · intro number positive small same
    rw [rustLength, same, asU64_nat small]
    simp [Option.filter, positive]

/-- Swift answers where neither number traps and the offset is not negative. -/
theorem swiftReadStream_answers_iff (payload : Dict) :
    Answers file files payload (swiftLength ((asInt (payload.get? "length")).getD none))
        (swiftReadStream file files payload) ↔
      ∃ offset length, asInt (payload.get? "offset") = some offset ∧
        asInt (payload.get? "length") = some length ∧ 0 ≤ offset.getD 0 := by
  unfold swiftReadStream
  cases first : asInt (payload.get? "offset") with
  | none =>
    refine iff_of_false ?_ ?_
    · rintro ⟨_, none, _⟩
      cases none
    · rintro ⟨_, _, none, _⟩
      cases none
  | some offset =>
    cases second : asInt (payload.get? "length") with
    | none =>
      refine iff_of_false ?_ ?_
      · rintro ⟨_, none, _⟩
        cases none
      · rintro ⟨_, _, _, none, _⟩
        cases none
    | some length =>
      simp only [Option.getD_some]
      by_cases negative : offset.getD 0 < 0
      · rw [if_pos negative]
        refine iff_of_false ?_ ?_
        · rintro ⟨_, none, _⟩
          cases none
        · rintro ⟨_, _, same, _, inside⟩
          cases same
          omega
      · rw [if_neg negative, serve_answers_iff (Nat.le_refl _) (fun _ _ _ => ⟨rfl, rfl, rfl⟩)]
        · exact iff_of_true (fun _ _ => rfl) ⟨offset, length, rfl, rfl, by omega⟩
        · intro place number sought small same
          rw [same] at first
          cases first
          cases sought
          simp
        · intro number positive small same
          rw [same] at second
          cases second
          simp [swiftLength, positive]

theorem serve_given {missing : String → String} {offset stride : Nat}
    {reply : Nat → Nat → Chunk → Value} {path : String} {place : Name} {content : List UInt8}
    (led : file.resolve path = .ok place) (held : files place = some content)
    (readable : file.unreadable place = none) :
    serve file missing (.ok offset) true stride reply path files =
      some { reply := reply content.length offset (chunkAt content offset stride)
             body := (chunkAt content offset stride).body } := by
  simp only [serve, led, held, readable, if_true]

theorem pythonReadStream_pages (refuses : Int → String) :
    Pages (pythonReadStream runtime numerals allocates refuses file files) allocates file files := by
  apply pages_of_turns
  intro path place content led held readable offset length inside positive _ enough
  have first : intArgument runtime numerals (cursor path offset length) "offset" 0 =
      some (offset : Int) := intArgument_int runtime numerals rfl (.inr rfl)
  have second : intArgument runtime numerals (cursor path offset length) "length" defaultChunk =
      some (length : Int) := intArgument_int runtime numerals rfl (.inl (by omega))
  have there : file.resolve (streamPath (cursor path offset length)) = .ok place := led
  refine ⟨length, ⟨streamReply path content.length offset (chunkAt content offset length),
    (chunkAt content offset length).body⟩, positive, ?_, rfl, rfl, rfl⟩
  simp only [pythonReadStream, first, second, Int.toNat_natCast, enough]
  rw [if_pos (by omega)]
  exact serve_given file files there held readable

theorem rustReadStream_pages (debug : String → String) (refuses : Nat → String) (most : Nat) :
    Pages (rustReadStream debug allocates refuses (most + 1) file files) allocates file files := by
  apply pages_of_turns
  intro path place content led held readable offset length inside positive narrow enough
  have offsetHeld : (cursor path offset length).get? "offset" = some (.int offset) := rfl
  have lengthHeld : (cursor path offset length).get? "length" = some (.int length) := rfl
  have first : asU64 ((cursor path offset length).get? "offset") = some offset := by
    rw [offsetHeld, asU64_nat inside]
  have second : asU64 ((cursor path offset length).get? "length") = some length := by
    rw [lengthHeld, asU64_nat narrow]
  have whole : rustLength (cursor path offset length) = length := by
    simp only [rustLength, second, Option.filter_some, positive, decide_true, if_true,
      Option.getD_some]
  have there : file.resolve (streamPath (cursor path offset length)) = .ok place := led
  refine ⟨min length (most + 1), ⟨streamHeader path content.length offset
    (chunkAt content offset (min length (most + 1))),
    (chunkAt content offset (min length (most + 1))).body⟩, by omega, ?_, rfl, rfl, rfl⟩
  simp only [rustReadStream, first, whole, Option.getD_some, if_pos inside, enough]
  exact serve_given file files there held readable

theorem swiftReadStream_pages : Pages (swiftReadStream file files) (fun _ => true) file files := by
  apply pages_of_turns
  intro path place content led held readable offset length inside positive _ _
  have first : asInt ((cursor path offset length).get? "offset") = some (some (offset : Int)) := rfl
  have second : asInt ((cursor path offset length).get? "length") = some (some (length : Int)) := rfl
  have there : file.resolve (streamPath (cursor path offset length)) = .ok place := led
  refine ⟨length, ⟨streamHeader path content.length offset (chunkAt content offset length),
    (chunkAt content offset length).body⟩, positive, ?_, rfl, rfl, rfl⟩
  have natural : ¬ (offset : Int) < 0 := by omega
  have moves : (0 : Int) < length := by omega
  simp only [swiftReadStream, first, second, Option.getD_some, if_neg natural, swiftLength,
    if_pos moves, Int.toNat_natCast]
  exact serve_given file files there held readable

end Runtimes

/-- An offset before the file. -/
def beforeTheFile : Dict where
  entries := [("path", .str "a.bin"), ("offset", .int (-1))]
  nodup := (by decide : ["path", "offset"].Nodup)

/-- An offset that is no number. -/
def offsetList : Dict where
  entries := [("path", .str "a.bin"), ("offset", .list [.int 1])]
  nodup := (by decide : ["path", "offset"].Nodup)

end Fantastic.Parity
