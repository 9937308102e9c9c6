import Mathlib.Data.List.TakeDrop
import Mathlib.Logic.Function.Basic

/-!
# Copying a file chunk by chunk

A coordinator reads a chunk of one file, writes it into another one at the same offset, and
goes on behind it until the reader says that the file has ended; the first write starts the
other file afresh. Between two files this makes an exact copy whenever the chunks are not
empty. From a file to itself it does so only when one chunk holds all of it.
-/

namespace Fantastic.ChunkCopy

/-- The regular files, by where they are. -/
abbrev Files (Name : Type*) := Name → Option (List UInt8)

/-- What is there, with the data written over it at an offset: a gap fills with zeros. -/
def splice (there : List UInt8) (offset : Nat) (data : List UInt8) : List UInt8 :=
  there.take offset ++ List.replicate (offset - there.length) 0 ++ data ++
    there.drop (offset + data.length)

/-- A chunk as a source answers it. -/
structure Chunk where
  body : List UInt8
  next : Nat
  last : Bool

/-- The chunk at an offset, of at most so many bytes. -/
def chunkAt (content : List UInt8) (offset stride : Nat) : Chunk :=
  let body := (content.drop offset).take stride
  { body := body
    next := offset + body.length
    last := decide (content.length ≤ offset + body.length) }

/-- What a call comes to: it gives something, it is refused, or it breaks off. -/
inductive Answer (Reply Item : Type*) where
  | given (item : Item)
  | refused (reply : Reply)
  | broken

inductive Side where
  | reading
  | writing
  deriving DecidableEq

inductive Ending (State Reply : Type*) where
  | answered (state : State) (bytes chunks : Nat)
  | refused (state : State) (side : Side) (reply : Reply)
  | broken (state : State)

variable {Name Reply State : Type*}

/-- The loop. The fuel bounds the chunks it may take. -/
def copy (read : State → Nat → Answer Reply Chunk)
    (write : State → Nat → Bool → List UInt8 → Answer Reply State) :
    Nat → State → Nat → Bool → Nat → Option (Ending State Reply)
  | 0, _, _, _, _ => none
  | fuel + 1, state, offset, first, chunks =>
    match read state offset with
    | .refused reply => some (.refused state .reading reply)
    | .broken => some (.broken state)
    | .given chunk =>
      match write state offset first chunk.body with
      | .refused reply => some (.refused state .writing reply)
      | .broken => some (.broken state)
      | .given after =>
        if chunk.last then some (.answered after chunk.next (chunks + 1))
        else copy read write fuel after chunk.next false (chunks + 1)

section Loop

variable {read : State → Nat → Answer Reply Chunk}
  {write : State → Nat → Bool → List UInt8 → Answer Reply State}

/-- More fuel changes nothing once the loop has ended. -/
theorem copy_succ {fuel : Nat} {ending : Ending State Reply} :
    ∀ {state : State} {offset chunks : Nat} {first : Bool},
      copy read write fuel state offset first chunks = some ending →
        copy read write (fuel + 1) state offset first chunks = some ending := by
  induction fuel with
  | zero =>
    intro state offset chunks first ended
    cases ended
  | succ fuel ih =>
    intro state offset chunks first ended
    rw [copy] at ended ⊢
    cases answer : read state offset with
    | refused reply =>
      rw [answer] at ended
      exact ended
    | broken =>
      rw [answer] at ended
      exact ended
    | given chunk =>
      rw [answer] at ended
      simp only at ended ⊢
      cases stored : write state offset first chunk.body with
      | refused reply =>
        rw [stored] at ended
        exact ended
      | broken =>
        rw [stored] at ended
        exact ended
      | given after =>
        rw [stored] at ended
        simp only at ended ⊢
        cases last : chunk.last with
        | true =>
          rw [last] at ended
          exact ended
        | false =>
          rw [last] at ended
          simp only [Bool.false_eq_true, if_false] at ended ⊢
          exact ih ended

theorem copy_of_le {fuel more : Nat} {ending : Ending State Reply} {state : State}
    {offset chunks : Nat} {first : Bool} (le : fuel ≤ more)
    (ended : copy read write fuel state offset first chunks = some ending) :
    copy read write more state offset first chunks = some ending := by
  induction le with
  | refl => exact ended
  | step _ ih => exact copy_succ ih

/-- The loop has one ending. -/
theorem copy_unique {fuel other : Nat} {ending later : Ending State Reply} {state : State}
    {offset chunks : Nat} {first : Bool}
    (ended : copy read write fuel state offset first chunks = some ending)
    (again : copy read write other state offset first chunks = some later) : later = ending := by
  have long := copy_of_le (Nat.le_max_left fuel other) ended
  have same := copy_of_le (Nat.le_max_right fuel other) again
  rw [long] at same
  exact (Option.some.inj same).symm

end Loop

/-! ### Chunks of one file -/

variable {content : List UInt8} {offset stride : Nat}

theorem splice_end (there : List UInt8) : splice there there.length [] = there := by
  simp [splice]

/-- A file that holds what lies before a chunk takes the chunk at its end. -/
theorem splice_front (inside : offset ≤ content.length) :
    splice (content.take offset) offset ((content.drop offset).take stride) =
      content.take (offset + stride) := by
  have size : (content.take offset).length = offset := by
    rw [List.length_take, Nat.min_eq_left inside]
  have whole : (content.take offset).take offset = content.take offset := by
    rw [List.take_take, Nat.min_self]
  have rest : (content.take offset).drop (offset + ((content.drop offset).take stride).length) =
      [] := by
    apply List.drop_eq_nil_of_le
    omega
  rw [splice, size, whole, rest, Nat.sub_self, List.replicate_zero, List.append_nil,
    List.append_nil, List.take_add]

theorem chunkAt_next (inside : offset ≤ content.length) :
    (chunkAt content offset stride).next = min (offset + stride) content.length := by
  simp only [chunkAt, List.length_take, List.length_drop]
  omega

theorem chunkAt_last (inside : offset ≤ content.length) :
    (chunkAt content offset stride).last = true ↔ content.length ≤ offset + stride := by
  simp only [chunkAt, List.length_take, List.length_drop, decide_eq_true_eq]
  omega

/-! ### Files -/

variable [DecidableEq Name] {files : Files Name} {source sink : Name}

/-- A file as a source. -/
def readAt (source : Name) (missing : Reply) (stride : Nat) (files : Files Name) (offset : Nat) :
    Answer Reply Chunk :=
  match files source with
  | none => .refused missing
  | some content => .given (chunkAt content offset stride)

/-- A file as a sink: a first chunk starts it afresh. -/
def stored (sink : Name) (files : Files Name) (offset : Nat) (first : Bool)
    (body : List UInt8) : Files Name :=
  Function.update files sink
    (some (splice (if first then [] else (files sink).getD []) offset body))

def writeAt (sink : Name) (files : Files Name) (offset : Nat) (first : Bool)
    (body : List UInt8) : Answer Reply (Files Name) :=
  .given (stored sink files offset first body)

/-- The loop from a file to a file. -/
def copyFile (missing : Reply) (stride : Nat) (source sink : Name) (files : Files Name)
    (fuel : Nat) : Option (Ending (Files Name) Reply) :=
  copy (readAt source missing stride) (writeAt sink) fuel files 0 true 0

theorem copy_step {missing : Reply} (held : files source = some content) (fuel : Nat)
    (first : Bool) (chunks : Nat) :
    copy (readAt source missing stride) (writeAt sink) (fuel + 1) files offset first chunks =
      (let chunk := chunkAt content offset stride
       let after := stored sink files offset first chunk.body
       if chunk.last then some (.answered after chunk.next (chunks + 1))
       else copy (readAt source missing stride) (writeAt sink) fuel after chunk.next false
        (chunks + 1)) := by
  rw [copy, readAt, held]
  rfl

/-- What a sink holds before the loop goes on at an offset. -/
def Written (content : List UInt8) (sink : Name) (files : Files Name) (offset : Nat)
    (first : Bool) : Prop :=
  if first then offset = 0 else files sink = some (content.take offset)

theorem Written.stored {first : Bool} (written : Written content sink files offset first)
    (inside : offset ≤ content.length) :
    ChunkCopy.stored sink files offset first ((content.drop offset).take stride) =
      Function.update files sink (some (content.take (offset + stride))) := by
  rw [ChunkCopy.stored, ← splice_front inside]
  cases first with
  | true =>
    change offset = 0 at written
    subst written
    simp
  | false =>
    change files sink = some (content.take offset) at written
    simp [written]

/-- Between two files every byte arrives. -/
theorem copy_apart {missing : Reply} (apart : source ≠ sink) (moves : 0 < stride) {fuel : Nat} :
    ∀ {files : Files Name} {offset chunks : Nat} {first : Bool},
      files source = some content → Written content sink files offset first →
        offset ≤ content.length → content.length < offset + fuel →
          ∃ count, copy (readAt source missing stride) (writeAt sink) fuel files offset first
            chunks = some (.answered (Function.update files sink (some content))
              content.length count) := by
  induction fuel with
  | zero =>
    intro files offset chunks first _ _ inside enough
    omega
  | succ fuel ih =>
    intro files offset chunks first held written inside enough
    rw [copy_step held]
    simp only
    have body : (chunkAt content offset stride).body = (content.drop offset).take stride := rfl
    rw [body, written.stored inside, chunkAt_next inside]
    by_cases last : content.length ≤ offset + stride
    · rw [if_pos ((chunkAt_last inside).mpr last), Nat.min_eq_right last,
        List.take_of_length_le last]
      exact ⟨_, rfl⟩
    · rw [if_neg fun reached => last ((chunkAt_last inside).mp reached)]
      have before : offset + stride ≤ content.length := by omega
      rw [Nat.min_eq_left before]
      have kept : Function.update files sink (some (content.take (offset + stride))) source =
          some content := by
        rw [Function.update_of_ne apart, held]
      have front : Written content sink
          (Function.update files sink (some (content.take (offset + stride))))
          (offset + stride) false :=
        Function.update_self ..
      obtain ⟨count, ended⟩ := @ih _ (offset + stride) (chunks + 1) false kept front before
        (by omega)
      rw [Function.update_idem] at ended
      exact ⟨count, ended⟩

/-- Empty chunks of a file that is not empty never reach its end. -/
theorem copy_stands {missing : Reply} (apart : source ≠ sink) (full : content ≠ []) {fuel : Nat} :
    ∀ {files : Files Name} {chunks : Nat} {first : Bool}, files source = some content →
      copy (readAt source missing 0) (writeAt sink) fuel files 0 first chunks = none := by
  induction fuel with
  | zero =>
    intro files chunks first _
    rfl
  | succ fuel ih =>
    intro files chunks first held
    have more : ¬ (chunkAt content 0 0).last = true := by
      rw [chunkAt_last (Nat.zero_le _)]
      have positive := List.length_pos_iff.mpr full
      omega
    rw [copy_step held]
    simp only
    rw [if_neg more]
    apply ih
    rw [stored, Function.update_of_ne apart, held]

/-- A file copied to itself keeps its first chunk. -/
theorem copy_same {missing : Reply} (held : files source = some content) :
    ∃ count, copyFile missing stride source source files 2 =
      some (.answered (Function.update files source (some (content.take stride)))
        (min stride content.length) count) := by
  have written : Written content source files 0 true := rfl
  rw [copyFile, copy_step held]
  simp only
  have body : (chunkAt content 0 stride).body = (content.drop 0).take stride := rfl
  rw [body, written.stored (Nat.zero_le _), chunkAt_next (Nat.zero_le _), Nat.zero_add]
  by_cases last : content.length ≤ stride
  · rw [if_pos ((chunkAt_last (Nat.zero_le _)).mpr (by omega))]
    exact ⟨_, rfl⟩
  · rw [if_neg fun reached => last (by have := (chunkAt_last (Nat.zero_le _)).mp reached; omega)]
    have shorter : (content.take stride).length = stride := by
      rw [List.length_take]
      omega
    have cut : Function.update files source (some (content.take stride)) source =
        some (content.take stride) := Function.update_self ..
    rw [Nat.min_eq_left (by omega), copy_step cut]
    have ended : (chunkAt (content.take stride) stride stride).last = true := by
      rw [chunkAt_last (by omega)]
      omega
    have next : (chunkAt (content.take stride) stride stride).next = stride := by
      rw [chunkAt_next (by omega)]
      omega
    have empty : (chunkAt (content.take stride) stride stride).body = [] := by
      have beyond : (content.take stride).drop stride = [] := List.drop_eq_nil_of_le (by omega)
      change ((content.take stride).drop stride).take stride = []
      rw [beyond, List.take_nil]
    simp only
    rw [if_pos ended, next, empty, stored, cut]
    have whole := splice_end (content.take stride)
    rw [shorter] at whole
    simp only [Bool.false_eq_true, if_false, Option.getD_some, whole, Function.update_idem]
    exact ⟨_, rfl⟩

/-! ### When the copy is exact -/

/-- The loop comes to an end; where it answers, the sink holds what the source held, so does the
source, and the answer gives its length. -/
def Exact (files : Files Name) (source sink : Name)
    (run : Nat → Option (Ending (Files Name) Reply)) : Prop :=
  (∃ fuel ending, run fuel = some ending) ∧
    ∀ fuel after bytes chunks, run fuel = some (.answered after bytes chunks) →
      ∀ content, files source = some content →
        after sink = some content ∧ bytes = content.length ∧ after source = some content

/-- The chunks move on, and a file that is copied to itself fits into one. -/
def Fits (stride : Nat) (source sink : Name) (content : List UInt8) : Prop :=
  (0 < stride ∨ content = []) ∧ (source ≠ sink ∨ content.length ≤ stride)

theorem copyFile_ends {missing : Reply} {fuel : Nat} {after : Files Name} {bytes chunks : Nat}
    (ended : copyFile missing stride source sink files fuel = some (.answered after bytes chunks))
    (held : files source = some content)
    (fine : after sink = some content ∧ bytes = content.length ∧ after source = some content) :
    Exact files source sink (copyFile missing stride source sink files) := by
  refine ⟨⟨fuel, _, ended⟩, ?_⟩
  intro other later size count again content' held'
  rw [held] at held'
  cases held'
  cases copy_unique ended again
  exact fine

theorem copyFile_exact_iff (missing : Reply) (held : files source = some content) :
    Exact files source sink (copyFile missing stride source sink files) ↔
      Fits stride source sink content := by
  by_cases same : source = sink
  · subst same
    obtain ⟨count, ended⟩ := @copy_same _ Reply content stride _ files source missing held
    constructor
    · intro exact'
      obtain ⟨whole, size, _⟩ := exact'.2 _ _ _ _ ended content held
      rw [Function.update_self] at whole
      have short : content.length ≤ stride := by omega
      refine ⟨?_, .inr short⟩
      rcases Nat.eq_zero_or_pos stride with zero | positive
      · right
        exact List.eq_nil_of_length_eq_zero (by omega)
      · exact .inl positive
    · intro fits
      have short : content.length ≤ stride := fits.2.resolve_left fun apart => apart rfl
      apply copyFile_ends ended held
      rw [Function.update_self, List.take_of_length_le short]
      exact ⟨rfl, by omega, rfl⟩
  · rcases Nat.eq_zero_or_pos stride with zero | positive
    · subst zero
      constructor
      · intro exact'
        refine ⟨.inr ?_, .inl same⟩
        by_contra full
        obtain ⟨fuel, ending, ended⟩ := exact'.1
        rw [copyFile, copy_stands same full held] at ended
        cases ended
      · intro fits
        have empty : content = [] := fits.1.resolve_left (Nat.lt_irrefl 0)
        subst empty
        have ended : copyFile missing 0 source sink files 1 =
            some (.answered (Function.update files sink (some [])) 0 1) := by
          rw [copyFile, copy_step held]
          rfl
        apply copyFile_ends ended held
        exact ⟨Function.update_self .., rfl, by rw [Function.update_of_ne same, held]⟩
    · have written : Written content sink files 0 true := rfl
      obtain ⟨count, ended⟩ := @copy_apart _ Reply content stride _ source sink missing same
        positive (content.length + 1) files 0 0 true held written (Nat.zero_le _) (by omega)
      refine iff_of_true ?_ ⟨.inl positive, .inl same⟩
      apply copyFile_ends ended held
      exact ⟨Function.update_self .., rfl, by rw [Function.update_of_ne same, held]⟩

end Fantastic.ChunkCopy
