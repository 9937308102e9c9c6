import Fantastic.Rust.WebSurface
import Mathlib.Algebra.GroupWithZero.Nat

/-!
# Chunked uploads over a whole connection

`ingest_chunk` counts the distinct chunks it holds, but it also counts the bytes of every
delivery, takes the header of the chunk that arrives first and forgets an upload once it is
assembled. An upload is assembled once, from all of its chunks, when its frames share one
header, its deliveries, repeated ones included, stay below the size cap, there is room for it
when it opens, and no chunk of it arrives after the last missing one.
-/

namespace Fantastic.Rust

/-- The header without the fields that describe the chunk. -/
def baseHeader (header : Value) : Value :=
  withoutFields ["upload_id", "chunk_index", "total_chunks", "final"] header

/-- What a client uploads under one id; `base` is what the header of each chunk's frame holds
besides the description of the chunk. No cap is exceeded by the chunks themselves. -/
structure Upload where
  id : String
  chunks : List Bytes
  base : Nat → Value
  nonempty : 0 < chunks.length
  numbered : chunks.length < 2 ^ 32
  small : ∀ chunk ∈ chunks, chunk.length ≤ maxChunkSize
  fits : chunks.flatten.length ≤ maxUploadSize
  targeted : ∀ index < chunks.length, (asStr (field (base index) "target")).isSome

namespace Upload

variable (serde : Serde) (client : Nat) (upload : Upload)

def chunk (index : Nat) : Bytes :=
  upload.chunks.getD index []

/-- The frame is one of the upload's, by its id. -/
def Names (bytes : Bytes) : Prop :=
  ((decodeBinaryFrame serde bytes).bind fun frame => asStr (field frame.1 "upload_id")) =
    some upload.id

instance (bytes : Bytes) : Decidable (upload.Names serde bytes) :=
  inferInstanceAs (Decidable (_ = _))

/-- The frame carries the chunk of that index. -/
def Carries (index : Nat) (bytes : Bytes) : Prop :=
  index < upload.chunks.length ∧ ∃ header,
    decodeBinaryFrame serde bytes = some (header, upload.chunk index) ∧
      asStr (field header "upload_id") = some upload.id ∧
      asU64 (field header "chunk_index") = some index ∧
      asU64 (field header "total_chunks") = some upload.chunks.length ∧
      baseHeader header = upload.base index

/-- The chunk index a frame of the upload gives. -/
def indexOf (bytes : Bytes) : Option Nat :=
  if upload.Names serde bytes then
    (decodeBinaryFrame serde bytes).bind fun frame => asU64 (field frame.1 "chunk_index")
  else none

/-- The deliveries of the upload among the frames, by index. -/
def received (arrivals : List Bytes) : List Nat :=
  arrivals.filterMap (upload.indexOf serde)

def Complete (received : List Nat) : Prop :=
  ∀ index < upload.chunks.length, index ∈ received

instance (received : List Nat) : Decidable (upload.Complete received) :=
  inferInstanceAs (Decidable (∀ index < upload.chunks.length, index ∈ received))

/-- The bytes of the deliveries, repeated ones included. -/
def delivered (received : List Nat) : Nat :=
  (received.map fun index => (upload.chunk index).length).sum

/-- Every frame with the upload's id carries one of its chunks, and every chunk arrives. -/
structure Arrives (arrivals : List Bytes) : Prop where
  own : ∀ bytes ∈ arrivals, upload.Names serde bytes → ∃ index, upload.Carries serde index bytes
  all : upload.Complete (upload.received serde arrivals)

end Upload

/-- The connection after the frames have been handled in order. -/
def receive (serde : Serde) (client : Nat) : Connection → List Bytes → Connection
  | connection, [] => connection
  | connection, bytes :: rest =>
    receive serde client (handleBinaryFrame serde client connection bytes).1 rest

/-- Header and blob of a dispatch. -/
def Effect.dispatch : Effect → Option (Value × Bytes)
  | .sendWithBinary _ _ header blob => some (header, blob)
  | _ => none

/-- What the frames of the upload dispatch. -/
def dispatched (serde : Serde) (client : Nat) (upload : Upload) :
    Connection → List Bytes → List (Value × Bytes)
  | _, [] => []
  | connection, bytes :: rest =>
    (if upload.Names serde bytes then
      (handleBinaryFrame serde client connection bytes).2.filterMap Effect.dispatch
    else []) ++
      dispatched serde client upload (handleBinaryFrame serde client connection bytes).1 rest

/-- One dispatch, with the chunks in index order, and no buffer left. -/
def Assembled (serde : Serde) (client : Nat) (upload : Upload) (connection : Connection)
    (arrivals : List Bytes) (header : Value) : Prop :=
  dispatched serde client upload connection arrivals = [(header, upload.chunks.flatten)] ∧
    (receive serde client connection arrivals).uploads.get? upload.id = none

/-- The frames share one header; the deliveries, repeated ones included, stay below the cap;
no frame of the upload follows its last missing chunk; and the first finds a free buffer. -/
structure Orderly (serde : Serde) (client : Nat) (upload : Upload) (connection : Connection)
    (arrivals : List Bytes) : Prop where
  oneHeader : ∀ index < upload.chunks.length, upload.base index = upload.base 0
  counted : upload.delivered (upload.received serde arrivals) ≤ maxUploadSize
  punctual : ∀ before bytes after, arrivals = before ++ bytes :: after →
    upload.Names serde bytes → ¬ upload.Complete (upload.received serde before)
  room : ∀ before bytes after, arrivals = before ++ bytes :: after →
    upload.Names serde bytes → upload.received serde before = [] →
      (receive serde client connection before).uploads.entries.length < maxConcurrentUploads

section Runs

variable {serde : Serde} {client : Nat} {upload : Upload}

theorem receive_append (connection : Connection) (before after : List Bytes) :
    receive serde client connection (before ++ after) =
      receive serde client (receive serde client connection before) after := by
  induction before generalizing connection with
  | nil => rfl
  | cons bytes rest ih => exact ih _

theorem dispatched_append (connection : Connection) (before after : List Bytes) :
    dispatched serde client upload connection (before ++ after) =
      dispatched serde client upload connection before ++
        dispatched serde client upload (receive serde client connection before) after := by
  induction before generalizing connection with
  | nil => rfl
  | cons bytes rest ih =>
    simp only [List.cons_append, dispatched, receive, ih, List.append_assoc]

end Runs

/-! ### The chunks held -/

/-- The chunks a buffer holds once those indices have been delivered. -/
def Upload.held (upload : Upload) (received : List Nat) : List (Nat × Bytes) :=
  ((List.range upload.chunks.length).filter (· ∈ received)).map fun index =>
    (index, upload.chunk index)

theorem insertChunk_below {index : Nat} {blob : Bytes} :
    ∀ {chunks : List (Nat × Bytes)}, (∀ held ∈ chunks, index < held.1) →
      insertChunk index blob chunks = (index, blob) :: chunks
  | [], _ => rfl
  | (other, _) :: rest, below => by
      rw [insertChunk, if_pos (below _ List.mem_cons_self)]

/-- `insertChunk` on the chosen part of an interval of indices. -/
theorem insertChunk_range' (chunk : Nat → Bytes) (chosen : List Nat) (index : Nat) :
    ∀ (count start : Nat), start ≤ index → index < start + count →
      insertChunk index (chunk index) (((List.range' start count).filter (· ∈ chosen)).map
        fun index => (index, chunk index)) =
      ((List.range' start count).filter (· ∈ chosen ++ [index])).map
        fun index => (index, chunk index)
  | 0, start, low, high => by omega
  | count + 1, start, low, high => by
      rw [List.range'_succ]
      by_cases first : start = index
      · subst first
        -- The index is the least of the interval, so the rest of it is as before.
        have rest : (start :: List.range' (start + 1) count).filter (· ∈ chosen ++ [start]) =
            start :: (List.range' (start + 1) count).filter (· ∈ chosen) := by
          rw [List.filter_cons_of_pos (by simp)]
          apply congrArg (start :: ·)
          apply List.filter_congr
          intro other inside
          have above := (List.mem_range'_1.mp inside).1
          simp [show other ≠ start by omega]
        rw [rest, List.map_cons]
        by_cases held : start ∈ chosen
        · rw [List.filter_cons_of_pos (by simpa using held), List.map_cons, insertChunk,
            if_neg (Nat.lt_irrefl _), if_pos rfl]
        · rw [List.filter_cons_of_neg (by simpa using held)]
          apply insertChunk_below
          intro entry inside
          obtain ⟨other, there, rfl⟩ := List.mem_map.mp inside
          have above := (List.mem_range'_1.mp (List.mem_filter.mp there).1).1
          simp only
          omega
      · have later := insertChunk_range' chunk chosen index count (start + 1) (by omega) (by omega)
        by_cases held : start ∈ chosen
        · rw [List.filter_cons_of_pos (by simpa using held),
            List.filter_cons_of_pos (by simp [held]), List.map_cons, List.map_cons, insertChunk,
            if_neg (by omega), if_neg (fun same => first same.symm), later]
        · rw [List.filter_cons_of_neg (by simpa using held),
            List.filter_cons_of_neg (by simp [held, first]), later]

namespace Upload

variable {upload : Upload}

theorem insertChunk_held {received : List Nat} {index : Nat}
    (inside : index < upload.chunks.length) :
    insertChunk index (upload.chunk index) (upload.held received) =
      upload.held (received ++ [index]) := by
  unfold held
  rw [List.range_eq_range']
  exact insertChunk_range' upload.chunk received index _ 0 (by omega) (by omega)

theorem held_length_le (received : List Nat) :
    (upload.held received).length ≤ upload.chunks.length := by
  have bound := List.length_filter_le (· ∈ received) (List.range upload.chunks.length)
  simpa [held] using bound

/-- The count of `ingest_chunk` is complete exactly if every chunk has been delivered. -/
theorem held_length_eq_iff {received : List Nat} :
    (upload.held received).length = upload.chunks.length ↔ upload.Complete received := by
  unfold held
  rw [List.length_map]
  have ranged : (List.range upload.chunks.length).length = upload.chunks.length :=
    List.length_range
  nth_rewrite 2 [← ranged]
  rw [List.length_filter_eq_length_iff]
  simp [Complete]

theorem held_complete {received : List Nat} (complete : upload.Complete received) :
    (upload.held received).flatMap Prod.snd = upload.chunks.flatten := by
  have whole : (List.range upload.chunks.length).filter (· ∈ received) =
      List.range upload.chunks.length := by
    apply List.filter_eq_self.mpr
    intro index inside
    simpa using complete index (List.mem_range.mp inside)
  have chunks : (List.range upload.chunks.length).map upload.chunk = upload.chunks := by
    apply List.ext_getElem
    · simp
    · intro index _ inside
      simp [chunk, inside]
  calc (upload.held received).flatMap Prod.snd
      = (List.range upload.chunks.length).flatMap upload.chunk := by
        rw [held, whole, List.flatMap_map]
    _ = ((List.range upload.chunks.length).map upload.chunk).flatten := List.flatMap_def
    _ = upload.chunks.flatten := by rw [chunks]

theorem Carries.names {serde : Serde} {index : Nat} {bytes : Bytes}
    (carries : upload.Carries serde index bytes) : upload.Names serde bytes := by
  obtain ⟨_, header, decoded, named, _⟩ := carries
  simp [Names, decoded, named]

theorem Carries.indexOf {serde : Serde} {index : Nat} {bytes : Bytes}
    (carries : upload.Carries serde index bytes) : upload.indexOf serde bytes = some index := by
  have names := carries.names
  obtain ⟨_, header, decoded, _, numbered, _⟩ := carries
  rw [Upload.indexOf, if_pos names, decoded]
  exact numbered

theorem chunk_length_le {index : Nat} (inside : index < upload.chunks.length) :
    (upload.chunk index).length ≤ maxChunkSize := by
  have there : upload.chunk index ∈ upload.chunks := by
    simp [chunk, inside]
  exact upload.small _ there

/-! ### One frame -/

/-- The buffer of an upload after those deliveries. -/
def buffer (upload : Upload) (received : List Nat) : ChunkBuffer where
  chunks := upload.held received
  total := upload.chunks.length
  cumulativeBytes := upload.delivered received
  baseHeader := upload.base 0

@[simp] theorem held_nil : upload.held [] = [] := by
  simp [held]

@[simp] theorem delivered_nil : upload.delivered [] = 0 := rfl

theorem delivered_append (received more : List Nat) :
    upload.delivered (received ++ more) = upload.delivered received + upload.delivered more := by
  simp [delivered]

/-- `ingest_chunk` with the next delivery of an upload that is still open, or not begun. -/
theorem ingestChunk_next {uploads : Uploads} {received : List Nat} {index : Nat}
    (inside : index < upload.chunks.length)
    (before : uploads.get? upload.id = some (upload.buffer received) ∨
      uploads.get? upload.id = none ∧ received = [] ∧
        uploads.entries.length < maxConcurrentUploads)
    (counted : upload.delivered (received ++ [index]) ≤ maxUploadSize) :
    ingestChunk uploads upload.id index upload.chunks.length (upload.chunk index)
        (upload.base 0) =
      if upload.Complete (received ++ [index]) then
        (uploads.erase upload.id, .ok (some (upload.base 0, upload.chunks.flatten)))
      else (uploads.insert upload.id (upload.buffer (received ++ [index])), .ok none) := by
  have admitted : (!uploads.contains upload.id &&
      decide (maxConcurrentUploads ≤ uploads.entries.length)) = false := by
    cases before with
    | inl found =>
      have present : uploads.contains upload.id = true :=
        OrderedDict.contains_iff.mpr (OrderedDict.mem_keys_iff.mpr ⟨_, found⟩)
      rw [present]
      rfl
    | inr fresh => simp [Nat.not_le.mpr fresh.2.2]
  have held : (uploads.get? upload.id).getD
      { chunks := []
        total := upload.chunks.length
        cumulativeBytes := 0
        baseHeader := upload.base 0 } = upload.buffer received := by
    cases before with
    | inl found => rw [found, Option.getD_some]
    | inr fresh =>
      rw [fresh.1, fresh.2.1, Option.getD_none, buffer, held_nil, delivered_nil]
  have projected : (upload.buffer received).cumulativeBytes + (upload.chunk index).length =
      upload.delivered (received ++ [index]) := by
    rw [delivered_append]
    simp [buffer, delivered]
  have inserted : insertChunk index (upload.chunk index) (upload.buffer received).chunks =
      upload.held (received ++ [index]) := insertChunk_held inside
  have few : (upload.held (received ++ [index])).length % 2 ^ 32 =
      (upload.held (received ++ [index])).length := by
    apply Nat.mod_eq_of_lt
    have bound := @held_length_le upload (received ++ [index])
    have numbered := upload.numbered
    omega
  unfold ingestChunk
  rw [admitted]
  simp only [Bool.false_eq_true, if_false, held]
  rw [if_neg (by simp [buffer]), projected, if_neg (by omega), inserted, few]
  have total : (upload.buffer received).total = upload.chunks.length := rfl
  rw [total]
  by_cases complete : upload.Complete (received ++ [index])
  · rw [if_pos complete, if_pos (held_length_eq_iff.mpr complete), held_complete complete]
    rfl
  · rw [if_neg complete, if_neg (fun whole => complete (held_length_eq_iff.mp whole))]
    rfl

end Upload

/-- `handle_binary_frame` begins by decoding the frame. -/
theorem handleBinaryFrame_eq (serde : Serde) (client : Nat) (connection : Connection)
    (bytes : Bytes) :
    handleBinaryFrame serde client connection bytes =
      match decodeBinaryFrame serde bytes with
      | none => (connection, [])
      | some (header, blob) =>
        if blob.length > maxChunkSize then
          (connection, [.notice client (errorFrame ((field header "id").getD .null)
            ("binary frame: blob " ++ toString blob.length ++ " bytes exceeds chunk cap " ++
              toString maxChunkSize))])
        else
          match asStr (field header "upload_id") with
          | some uploadId => handleChunkedFrame client connection uploadId header
              ((field header "id").getD .null) blob
          | none => (connection, (dispatchBinary client header blob).toList) := by
  unfold handleBinaryFrame decodeBinaryFrame
  cases beValue bytes with
  | none => rfl
  | some size =>
    by_cases short : bytes.length < 4 + size
    · simp only [if_pos short]
    · simp only [if_neg short]
      cases serde.fromSlice ((bytes.drop 4).take size) <;> rfl

/-- Chunks of one upload leave the buffers of the others alone. -/
theorem ingestChunk_get?_of_ne (uploads : Uploads) {uploadId other : String} (apart : other ≠ uploadId)
    (index total : Nat) (blob : Bytes) (base : Value) :
    (ingestChunk uploads uploadId index total blob base).1.get? other = uploads.get? other := by
  unfold ingestChunk
  split
  · rfl
  · simp only
    split
    · rw [OrderedDict.get?_erase, if_neg apart]
    · split
      · rw [OrderedDict.get?_erase, if_neg apart]
      · split
        · rw [OrderedDict.get?_erase, if_neg apart]
        · exact OrderedDict.get?_insert_of_ne _ _ apart

theorem handleChunkedFrame_get?_of_ne (client : Nat) (connection : Connection)
    {uploadId other : String} (apart : other ≠ uploadId) (header id : Value) (blob : Bytes) :
    (handleChunkedFrame client connection uploadId header id blob).1.uploads.get? other =
      connection.uploads.get? other := by
  unfold handleChunkedFrame
  split
  · rfl
  · split
    · rfl
    · split
      · rfl
      · split
        · rfl
        · split
          · rfl
          · simp only
            split
            · exact ingestChunk_get?_of_ne _ apart _ _ _ _
            · exact ingestChunk_get?_of_ne _ apart _ _ _ _
            · split
              · exact ingestChunk_get?_of_ne _ apart _ _ _ _
              · exact ingestChunk_get?_of_ne _ apart _ _ _ _

section Frames

variable {serde : Serde} {client : Nat} {upload : Upload} {connection : Connection}

/-- Frames without the upload's id leave its buffer alone. -/
theorem handleBinaryFrame_get?_of_not_names {bytes : Bytes}
    (foreign : ¬ upload.Names serde bytes) :
    (handleBinaryFrame serde client connection bytes).1.uploads.get? upload.id =
      connection.uploads.get? upload.id := by
  rw [handleBinaryFrame_eq]
  unfold Upload.Names at foreign
  cases decoded : decodeBinaryFrame serde bytes with
  | none => rfl
  | some frame =>
    rw [decoded, Option.bind_some] at foreign
    simp only
    split
    · rfl
    · cases named : asStr (field frame.1 "upload_id") with
      | none => rfl
      | some uploadId =>
        rw [named] at foreign
        exact handleChunkedFrame_get?_of_ne client connection
          (fun same => foreign (congrArg some same.symm)) _ _ _

/-- What an outcome of `ingest_chunk` makes a frame dispatch. -/
def outcomeDispatch : Except String (Option (Value × Bytes)) → List (Value × Bytes)
  | .ok (some (assembled, full)) =>
    if (asStr (field assembled "target")).isSome then [(assembled, full)] else []
  | _ => []

/-- A frame that carries a chunk does what `ingest_chunk` says. -/
theorem handleBinaryFrame_of_carries {index : Nat} {bytes : Bytes}
    (carries : upload.Carries serde index bytes) {uploads : Uploads}
    {outcome : Except String (Option (Value × Bytes))}
    (ingested : ingestChunk connection.uploads upload.id index upload.chunks.length
      (upload.chunk index) (upload.base index) = (uploads, outcome)) :
    (handleBinaryFrame serde client connection bytes).1.uploads = uploads ∧
      (handleBinaryFrame serde client connection bytes).2.filterMap Effect.dispatch =
        outcomeDispatch outcome := by
  obtain ⟨inside, header, decoded, named, numbered, total, base⟩ := carries
  have small := Upload.chunk_length_le inside
  have bound := upload.numbered
  have positive := upload.nonempty
  rw [handleBinaryFrame_eq, decoded]
  simp only [if_neg (Nat.not_lt.mpr small), named, handleChunkedFrame, numbered, total]
  rw [if_neg (by omega), if_neg (by omega), if_neg (by omega)]
  rw [show withoutFields ["upload_id", "chunk_index", "total_chunks", "final"] header =
    upload.base index from base, ingested]
  match outcome with
  | .error text => exact ⟨rfl, rfl⟩
  | .ok none => exact ⟨rfl, rfl⟩
  | .ok (some (assembled, full)) =>
    cases target : asStr (field assembled "target") with
    | none => simp [dispatchBinary, outcomeDispatch, target, Effect.dispatch]
    | some name => simp [dispatchBinary, outcomeDispatch, target, Effect.dispatch]

end Frames

/-! ### Whole runs -/

/-- Where an upload is after some deliveries: its buffer and what it has dispatched. -/
def Upload.Progress (upload : Upload) (received : List Nat) (buffer : Option ChunkBuffer)
    (sent : List (Value × Bytes)) : Prop :=
  if upload.Complete received then buffer = none ∧ sent = [(upload.base 0, upload.chunks.flatten)]
  else sent = [] ∧
    (buffer = some (upload.buffer received) ∨ buffer = none ∧ received = [])

section Runs

variable {serde : Serde} {client : Nat} {upload : Upload} {connection : Connection}

theorem Upload.progress_nil : upload.Progress [] none [] := by
  have open' : ¬ upload.Complete [] := by
    intro complete
    exact absurd (complete 0 upload.nonempty) List.not_mem_nil
  rw [Upload.Progress, if_neg open']
  exact ⟨rfl, .inr ⟨rfl, rfl⟩⟩

/-- One frame of the upload takes it from one delivery to the next. -/
theorem Upload.Progress.deliver {received : List Nat} {sent : List (Value × Bytes)}
    (progress : upload.Progress received (connection.uploads.get? upload.id) sent)
    (oneHeader : ∀ index < upload.chunks.length, upload.base index = upload.base 0)
    (open' : ¬ upload.Complete received)
    (room : received = [] → connection.uploads.entries.length < maxConcurrentUploads)
    {index : Nat} {bytes : Bytes} (carries : upload.Carries serde index bytes)
    (counted : upload.delivered (received ++ [index]) ≤ maxUploadSize) :
    upload.Progress (received ++ [index])
      ((handleBinaryFrame serde client connection bytes).1.uploads.get? upload.id)
      (sent ++ (handleBinaryFrame serde client connection bytes).2.filterMap
        Effect.dispatch) := by
  have inside := carries.1
  rw [Upload.Progress, if_neg open'] at progress
  obtain ⟨unsent, held⟩ := progress
  have before : connection.uploads.get? upload.id = some (upload.buffer received) ∨
      connection.uploads.get? upload.id = none ∧ received = [] ∧
        connection.uploads.entries.length < maxConcurrentUploads := by
    cases held with
    | inl found => exact .inl found
    | inr fresh => exact .inr ⟨fresh.1, fresh.2, room fresh.2⟩
  have next := Upload.ingestChunk_next inside before counted
  rw [← oneHeader index inside] at next
  by_cases complete : upload.Complete (received ++ [index])
  · rw [if_pos complete] at next
    obtain ⟨uploads, effects⟩ := handleBinaryFrame_of_carries carries next
    rw [Upload.Progress, if_pos complete, uploads, effects, unsent, OrderedDict.get?_erase,
      if_pos rfl, outcomeDispatch, if_pos (upload.targeted index inside), oneHeader index inside]
    exact ⟨rfl, rfl⟩
  · rw [if_neg complete] at next
    obtain ⟨uploads, effects⟩ := handleBinaryFrame_of_carries carries next
    rw [Upload.Progress, if_neg complete, uploads, effects, unsent, OrderedDict.get?_insert_self]
    exact ⟨rfl, .inl rfl⟩

theorem Upload.received_append (before after : List Bytes) :
    upload.received serde (before ++ after) =
      upload.received serde before ++ upload.received serde after := by
  simp [Upload.received]

/-- The progress of the upload after every beginning of an orderly run. -/
theorem Orderly.progress {arrivals : List Bytes}
    (orderly : Orderly serde client upload connection arrivals)
    (own : ∀ bytes ∈ arrivals, upload.Names serde bytes → ∃ index,
      upload.Carries serde index bytes)
    (fresh : connection.uploads.get? upload.id = none) (before : List Bytes) :
    ∀ after, arrivals = before ++ after →
      upload.Progress (upload.received serde before)
        ((receive serde client connection before).uploads.get? upload.id)
        (dispatched serde client upload connection before) := by
  induction before using List.reverseRecOn with
  | nil =>
    intro after _
    simp only [receive, fresh]
    exact Upload.progress_nil
  | append_singleton before bytes ih =>
    intro after split
    have split' : arrivals = before ++ bytes :: after := by simpa using split
    have earlier := ih (bytes :: after) split'
    rw [receive_append, dispatched_append, Upload.received_append]
    simp only [receive, dispatched, List.append_nil]
    by_cases names : upload.Names serde bytes
    · obtain ⟨index, carries⟩ := own bytes (by simp [split']) names
      have single : upload.received serde [bytes] = [index] := by
        simp [Upload.received, carries.indexOf]
      have counted : upload.delivered (upload.received serde before ++ [index]) ≤
          maxUploadSize := by
        have all := orderly.counted
        rw [split, Upload.received_append, Upload.received_append, single,
          Upload.delivered_append] at all
        omega
      rw [if_pos names, single]
      exact earlier.deliver orderly.oneHeader (orderly.punctual _ _ _ split' names)
        (orderly.room _ _ _ split' names) carries counted
    · have nothing : upload.received serde [bytes] = [] := by
        simp [Upload.received, Upload.indexOf, names]
      rw [if_neg names, nothing, List.append_nil, List.append_nil,
        handleBinaryFrame_get?_of_not_names names]
      exact earlier

/-- In every orderly run the upload is assembled once, with a header that only the upload
determines, and its buffer is gone. -/
theorem orderly_runs_assemble (serde : Serde) (client : Nat) (upload : Upload)
    (connection : Connection) (arrivals : List Bytes)
    (fresh : connection.uploads.get? upload.id = none)
    (arrives : upload.Arrives serde arrivals)
    (orderly : Orderly serde client upload connection arrivals) :
    Assembled serde client upload connection arrivals (upload.base 0) := by
  have progress := orderly.progress arrives.own fresh arrivals [] (by simp)
  rw [Upload.Progress, if_pos arrives.all] at progress
  exact ⟨progress.2, progress.1⟩

end Runs

/-! ### An upload of two chunks -/

/-- The header of a chunk's frame. -/
def twoPartHeader (index : Nat) : Value :=
  object [("upload_id", .str "u1"), ("chunk_index", .int index), ("total_chunks", .int 2),
    ("target", .str "files")]

def twoPartText (index : Nat) : String :=
  "\x7b\"upload_id\":\"u1\",\"chunk_index\":" ++ toString index ++
    ",\"total_chunks\":2,\"target\":\"files\"\x7d"

/-- A serializer that agrees with `serde_json` on the two headers at hand. -/
def twoPartSerde : Serde where
  toVec := fun header => utf8 (twoPartText (if header = twoPartHeader 0 then 0 else 1))
  fromSlice := fun bytes =>
    if bytes = utf8 (twoPartText 0) then some (twoPartHeader 0)
    else if bytes = utf8 (twoPartText 1) then some (twoPartHeader 1)
    else none

def twoParts : Upload where
  id := "u1"
  chunks := [[1, 2], [3]]
  base := fun _ => object [("target", .str "files")]
  nonempty := by decide
  numbered := by decide
  small := by decide
  fits := by decide
  targeted := by decide

def twoPartFrame (index : Nat) : Bytes :=
  encodeBinaryFrame twoPartSerde (twoPartHeader index) (twoParts.chunk index)

def idleConnection : Connection where
  host := "chat"
  watching := ["chat"]
  subscriptions := 0
  uploads := .empty

theorem twoPartText_fits (index : Nat) (listed : index = 0 ∨ index = 1) :
    (utf8 (twoPartText index)).length < 2 ^ 32 := by
  rw [utf8_length]
  rcases listed with rfl | rfl <;> decide

theorem twoPartHeader_written (index : Nat) (listed : index = 0 ∨ index = 1) :
    twoPartSerde.toVec (twoPartHeader index) = utf8 (twoPartText index) ∧
      twoPartSerde.fromSlice (utf8 (twoPartText index)) = some (twoPartHeader index) := by
  have headers : twoPartHeader 1 ≠ twoPartHeader 0 := by
    decide
  have texts : utf8 (twoPartText 1) ≠ utf8 (twoPartText 0) := by
    intro same
    exact absurd (utf8_injective same) (by decide)
  rcases listed with rfl | rfl
  · simp only [twoPartSerde, if_true, and_self]
  · simp only [twoPartSerde, if_neg headers, if_neg texts, if_true, and_self]

theorem twoPartFrame_decodes (index : Nat) (listed : index = 0 ∨ index = 1) :
    decodeBinaryFrame twoPartSerde (twoPartFrame index) =
      some (twoPartHeader index, twoParts.chunk index) := by
  obtain ⟨written, parsed⟩ := twoPartHeader_written index listed
  apply decode_encode
  · rw [written, parsed]
  · rw [written]
    exact twoPartText_fits index listed

theorem twoPartFrame_carries :
    twoParts.Carries twoPartSerde 0 (twoPartFrame 0) ∧
      twoParts.Carries twoPartSerde 1 (twoPartFrame 1) :=
  ⟨⟨by decide, twoPartHeader 0, twoPartFrame_decodes 0 (.inl rfl), rfl, rfl, rfl, rfl⟩,
    ⟨by decide, twoPartHeader 1, twoPartFrame_decodes 1 (.inr rfl), rfl, rfl, rfl, rfl⟩⟩

/-- The frames name the chunks of the upload by their indices. -/
theorem twoParts_received_cons (arrivals : List Bytes) :
    twoParts.received twoPartSerde (twoPartFrame 0 :: arrivals) =
        0 :: twoParts.received twoPartSerde arrivals ∧
      twoParts.received twoPartSerde (twoPartFrame 1 :: arrivals) =
        1 :: twoParts.received twoPartSerde arrivals :=
  ⟨List.filterMap_cons_some twoPartFrame_carries.1.indexOf,
    List.filterMap_cons_some twoPartFrame_carries.2.indexOf⟩

theorem twoParts_received_pair :
    twoParts.received twoPartSerde [twoPartFrame 1, twoPartFrame 0] = [1, 0] := by
  rw [(twoParts_received_cons _).2, (twoParts_received_cons _).1]
  rfl

theorem beginning_of_pair {first second bytes : Bytes} {before after : List Bytes}
    (split : [first, second] = before ++ bytes :: after) : before = [] ∨ before = [first] := by
  match before with
  | [] => exact .inl rfl
  | [only] =>
    injection split with head _
    exact .inr (congrArg (fun bytes => [bytes]) head.symm)
  | _ :: _ :: rest =>
    have lengths := congrArg List.length split
    simp at lengths

/-- The last chunk first: the upload is assembled all the same. -/
theorem reversed_chunks_assemble :
    Assembled twoPartSerde 0 twoParts idleConnection [twoPartFrame 1, twoPartFrame 0]
      (object [("target", .str "files")]) := by
  apply orderly_runs_assemble
  · rfl
  · constructor
    · intro bytes arrived _
      simp only [List.mem_cons, List.not_mem_nil, or_false] at arrived
      cases arrived with
      | inl second =>
        rw [second]
        exact ⟨1, twoPartFrame_carries.2⟩
      | inr first =>
        rw [first]
        exact ⟨0, twoPartFrame_carries.1⟩
    · rw [twoParts_received_pair]
      decide
  · constructor
    · intro _ _
      rfl
    · rw [twoParts_received_pair]
      decide
    · intro before bytes after split _
      cases beginning_of_pair split with
      | inl none' =>
        rw [none']
        decide
      | inr one =>
        rw [one, (twoParts_received_cons []).2]
        decide
    · intro before bytes after split _ unseen
      cases beginning_of_pair split with
      | inl none' =>
        rw [none']
        decide
      | inr one =>
        rw [one, (twoParts_received_cons []).2] at unseen
        cases unseen

/-- The buffers of the connection after the chunks 1, 0 and 1 again. -/
theorem late_repeat_uploads :
    (receive twoPartSerde 0 idleConnection [twoPartFrame 1, twoPartFrame 0,
      twoPartFrame 1]).uploads = OrderedDict.empty.insert twoParts.id (twoParts.buffer [1]) := by
  have first := @handleBinaryFrame_of_carries twoPartSerde 0 twoParts idleConnection 1
    (twoPartFrame 1) twoPartFrame_carries.2
    (OrderedDict.empty.insert twoParts.id (twoParts.buffer [1])) (.ok none) rfl
  have second := @handleBinaryFrame_of_carries twoPartSerde 0 twoParts
    (handleBinaryFrame twoPartSerde 0 idleConnection (twoPartFrame 1)).1 0 (twoPartFrame 0)
    twoPartFrame_carries.1 .empty (.ok (some (twoParts.base 0, [1, 2, 3]))) (by
      rw [first.1]
      rfl)
  have third := @handleBinaryFrame_of_carries twoPartSerde 0 twoParts
    (handleBinaryFrame twoPartSerde 0
      (handleBinaryFrame twoPartSerde 0 idleConnection (twoPartFrame 1)).1 (twoPartFrame 0)).1 1
    (twoPartFrame 1) twoPartFrame_carries.2
    (OrderedDict.empty.insert twoParts.id (twoParts.buffer [1])) (.ok none) (by
      rw [second.1]
      rfl)
  rw [receive, receive, receive, receive]
  exact third.1

/-- A chunk delivered again after the upload was assembled opens a buffer that stays. -/
theorem late_repeat_leaves_a_buffer :
    twoParts.Arrives twoPartSerde [twoPartFrame 1, twoPartFrame 0, twoPartFrame 1] ∧
      ∀ header, ¬ Assembled twoPartSerde 0 twoParts idleConnection
        [twoPartFrame 1, twoPartFrame 0, twoPartFrame 1] header := by
  constructor
  · constructor
    · intro bytes arrived _
      simp only [List.mem_cons, List.not_mem_nil, or_false] at arrived
      obtain second | first | again := arrived
      · rw [second]
        exact ⟨1, twoPartFrame_carries.2⟩
      · rw [first]
        exact ⟨0, twoPartFrame_carries.1⟩
      · rw [again]
        exact ⟨1, twoPartFrame_carries.2⟩
    · rw [(twoParts_received_cons _).2, (twoParts_received_cons _).1,
        (twoParts_received_cons _).2]
      decide
  · intro header assembled
    have gone := assembled.2
    rw [late_repeat_uploads, OrderedDict.get?_insert_self] at gone
    cases gone

end Fantastic.Rust
