import Fantastic.Python.ContextProjection
import Fantastic.Python.TerminalReader
import Fantastic.Rust.Codec

/-!
# The scrollback of a terminal and its replay

`_append_scrollback` and `_output` of `terminal_backend/tools.py`, and the same in `reader_loop`
and `output_reply` of `fantastic-terminal-backend`. Rust drops an empty text before it gets there;
that `output` also resets the flow control of Rust is left out.
-/

namespace Fantastic.Parity.Scrollback

open Fantastic.Python (Runtime PyError)
open Fantastic.Python.Ai (Numerals intOf plainRuntime asciiNumerals)
open Fantastic.Python.Terminal (maxScrollback appendScrollback scrollbackText)
open Fantastic.Rust (asU64)
open RollingTail (Tail Ends)
open TurnWindow (weight weight_cons weight_append)

/-! ### Python -/

/-- `text[start:]`. -/
def sliceFrom (start : Int) (chars : List Char) : List Char :=
  if start < 0 then chars.drop (chars.length - (-start).toNat) else chars.drop start.toNat

def pythonTail (text : String) (maxBytes : Int) : String :=
  if maxBytes < text.utf8ByteSize then String.ofList (sliceFrom (-maxBytes) text.toList) else text

/-- `_output` for the scrollback of a session, if there is one. -/
def pythonOutput (runtime : Runtime) (numerals : Numerals) (session : Option (Tail String))
    (payload : Dict) : Except PyError String :=
  (intOf runtime numerals ((payload.get? "max_bytes").getD (.int maxScrollback))).map fun maxBytes =>
    pythonTail ((session.map scrollbackText).getD "") maxBytes

/-! ### Rust -/

/-- `MAX_SCROLLBACK_BYTES`. -/
def maxScrollbackBytes : Nat := 256 * 1024

/-- What `reader_loop` does to the ring with a decoded text. -/
def rustAppend (scrollback : Tail String) (out : String) : Tail String :=
  if out = "" then scrollback
  else RollingTail.push String.utf8ByteSize maxScrollbackBytes scrollback out

def isCharBoundary : List Char → Nat → Bool
  | _, 0 => true
  | [], _ + 1 => false
  | char :: rest, index + 1 =>
    char.utf8Size ≤ index + 1 && isCharBoundary rest (index + 1 - char.utf8Size)

/-- `full[start..]`. -/
def fromByte : List Char → Nat → List Char
  | chars, 0 => chars
  | [], _ + 1 => []
  | char :: rest, index + 1 => fromByte rest (index + 1 - char.utf8Size)

def rustTail (full : String) (maxBytes : Nat) : String :=
  if maxBytes < full.utf8ByteSize then
    let start := full.utf8ByteSize - maxBytes
    let found := (List.range' start (full.utf8ByteSize - start)).find? (isCharBoundary full.toList)
    String.ofList (fromByte full.toList (found.getD full.utf8ByteSize))
  else full

/-- `output_reply`. -/
def rustOutput (session : Option (Tail String)) (payload : Dict) : String :=
  match session with
  | none => ""
  | some scrollback =>
    rustTail (String.join scrollback.items)
      ((asU64 (payload.get? "max_bytes")).getD maxScrollbackBytes)

/-! ### The law -/

def utf8Length (chars : List Char) : Nat :=
  weight Char.utf8Size chars

structure LongestSuffix (text : List Char) (limit : Int) (answer : List Char) : Prop where
  suffix : answer <:+ text
  fits : (utf8Length answer : Int) ≤ limit
  longest : ∀ other, other <:+ text → (utf8Length other : Int) ≤ limit →
    other.length ≤ answer.length

/-- What the ring holds of everything that was output, and what `output` answers. -/
structure Replays (cap : Nat) (log : List String) (ring : Tail String) (limit : Int)
    (answer : String) : Prop where
  counted : ring.total = (String.join ring.items).utf8ByteSize
  capped : ring.total ≤ cap
  retained : (String.join ring.items).toList <:+ (String.join log).toList
  answered : LongestSuffix (String.join ring.items).toList limit answer.toList

/-- The limit of a request, an integer or the default. -/
def Asks (payload : Dict) (limit : Int) : Prop :=
  payload.get? "max_bytes" = some (.int limit) ∨
    payload.get? "max_bytes" = none ∧ limit = maxScrollback

/-- Where as many characters as the limit has bytes are the right tail: the text is within the
limit, or it ends with that many characters of one byte. -/
def CharsAreBytes (text : String) (limit : Int) : Prop :=
  0 ≤ limit ∧ (text.utf8ByteSize ≤ limit ∨
    0 < limit ∧ limit ≤ text.toList.length ∧
      ∀ char ∈ text.toList.drop (text.toList.length - limit.toNat), char.utf8Size = 1)

/-! ### Texts and their bytes -/

theorem utf8Length_ofList (chars : List Char) :
    (String.ofList chars).utf8ByteSize = utf8Length chars := by
  induction chars with
  | nil => rfl
  | cons char rest ih =>
    rw [← List.singleton_append, String.ofList_append, String.utf8ByteSize_append, ih]
    unfold utf8Length
    rw [List.singleton_append, weight_cons]
    exact congrArg (· + _) String.utf8ByteSize_singleton

theorem utf8Length_toList (text : String) : text.utf8ByteSize = utf8Length text.toList := by
  rw [← utf8Length_ofList, String.ofList_toList]

theorem utf8Length_append (front back : List Char) :
    utf8Length (front ++ back) = utf8Length front + utf8Length back :=
  weight_append _ front back

theorem length_le_utf8Length (chars : List Char) : chars.length ≤ utf8Length chars := by
  induction chars with
  | nil => exact Nat.le_refl 0
  | cons char rest ih =>
    have positive := char.utf8Size_pos
    unfold utf8Length at ih ⊢
    rw [weight_cons, List.length_cons]
    omega

theorem longest_of_bytes {text answer : List Char} {limit : Int} (suffix : answer <:+ text)
    (fits : (utf8Length answer : Int) ≤ limit)
    (most : ∀ other, other <:+ text → (utf8Length other : Int) ≤ limit →
      utf8Length other ≤ utf8Length answer) : LongestSuffix text limit answer := by
  refine ⟨suffix, fits, ?_⟩
  intro other ends short
  by_contra longer
  obtain ⟨more, rfl⟩ := List.suffix_of_suffix_length_le suffix ends (by omega)
  have bytes := most _ ends short
  have count := length_le_utf8Length more
  rw [List.length_append] at longer
  rw [utf8Length_append] at bytes
  omega

theorem longest_whole {text : List Char} {limit : Int} (fits : (utf8Length text : Int) ≤ limit) :
    LongestSuffix text limit text :=
  ⟨List.suffix_refl text, fits, fun _ ends _ => ends.length_le⟩

/-! ### Rust cuts between characters -/

theorem boundary_append (front back : List Char) :
    isCharBoundary (front ++ back) (utf8Length front) = true ∧
      fromByte (front ++ back) (utf8Length front) = back := by
  induction front with
  | nil => cases back <;> exact ⟨rfl, rfl⟩
  | cons char rest ih =>
    have positive := char.utf8Size_pos
    obtain ⟨count, size⟩ : ∃ count, char.utf8Size + utf8Length rest = count + 1 :=
      ⟨char.utf8Size + utf8Length rest - 1, by omega⟩
    have shift : count + 1 - char.utf8Size = utf8Length rest := by omega
    have length : utf8Length (char :: rest) = count + 1 := by
      rw [← size]
      exact weight_cons _ char rest
    rw [length, List.cons_append, isCharBoundary, fromByte, shift, Bool.and_eq_true,
      decide_eq_true_eq]
    exact ⟨⟨by omega, ih.1⟩, ih.2⟩

theorem boundary_split (chars : List Char) : ∀ index, isCharBoundary chars index = true →
    ∃ front back, chars = front ++ back ∧ utf8Length front = index := by
  induction chars with
  | nil =>
    intro index boundary
    cases index with
    | zero => exact ⟨[], [], rfl, rfl⟩
    | succ index => cases boundary
  | cons char rest ih =>
    intro index boundary
    cases index with
    | zero => exact ⟨[], char :: rest, rfl, rfl⟩
    | succ index =>
      rw [isCharBoundary, Bool.and_eq_true, decide_eq_true_eq] at boundary
      obtain ⟨front, back, rfl, length⟩ := ih _ boundary.2
      refine ⟨char :: front, back, rfl, ?_⟩
      have := weight_cons Char.utf8Size char front
      unfold utf8Length at length ⊢
      omega

theorem suffix_split {text answer : List Char} (suffix : answer <:+ text) :
    ∃ front, text = front ++ answer ∧ utf8Length text = utf8Length front + utf8Length answer := by
  obtain ⟨front, same⟩ := suffix
  exact ⟨front, same.symm, by rw [← same, utf8Length_append]⟩

theorem rustTail_longest (full : String) (maxBytes : Nat) :
    LongestSuffix full.toList maxBytes (rustTail full maxBytes).toList := by
  unfold rustTail
  split
  case isFalse fits =>
    apply longest_whole
    rw [← utf8Length_toList]
    omega
  case isTrue long =>
    rw [utf8Length_toList] at long ⊢
    simp only [String.toList_ofList]
    generalize full.toList = text at long ⊢
    have within : ∀ other, other <:+ text → (utf8Length other : Int) ≤ maxBytes →
        0 < utf8Length other → ∃ index, index ∈ List.range' (utf8Length text - maxBytes)
          (utf8Length text - (utf8Length text - maxBytes)) ∧ isCharBoundary text index = true ∧
            index + utf8Length other = utf8Length text := by
      intro other ends short positive
      obtain ⟨front, same, length⟩ := suffix_split ends
      refine ⟨utf8Length front, List.mem_range'_1.mpr (by omega), ?_, by omega⟩
      rw [same]
      exact (boundary_append front other).1
    cases search : (List.range' (utf8Length text - maxBytes)
        (utf8Length text - (utf8Length text - maxBytes))).find? (isCharBoundary text) with
    | none =>
      have nothing : fromByte text (utf8Length text) = [] := by
        have whole := (boundary_append text []).2
        rwa [List.append_nil] at whole
      rw [Option.getD_none, nothing]
      apply longest_of_bytes (List.nil_suffix) (Int.natCast_nonneg maxBytes)
      intro other ends short
      by_contra positive
      obtain ⟨index, inside, boundary, _⟩ := within other ends short (by
        have none : utf8Length [] = 0 := rfl
        omega)
      exact List.find?_eq_none.mp search index inside boundary
    | some index =>
      obtain ⟨found, inside, first⟩ := List.find?_range'_eq_some.mp search
      rw [List.mem_range'_1] at inside
      obtain ⟨front, back, same, length⟩ := boundary_split text index found
      have cut : fromByte text index = back := by
        rw [same, ← length]
        exact (boundary_append front back).2
      have total : utf8Length text = index + utf8Length back := by
        rw [same, utf8Length_append, length]
      rw [Option.getD_some, cut]
      apply longest_of_bytes ⟨front, same.symm⟩ (by omega)
      intro other ends short
      by_contra longer
      obtain ⟨earlier, among, boundary, sum⟩ := within other ends short (by omega)
      rw [List.mem_range'_1] at among
      have none := first earlier among.1 (by omega)
      rw [boundary] at none
      cases none

/-! ### Python cuts by characters -/

theorem drop_of_nonneg {maxBytes : Int} (positive : 0 < maxBytes) (chars : List Char) :
    sliceFrom (-maxBytes) chars = chars.drop (chars.length - maxBytes.toNat) := by
  rw [sliceFrom, if_pos (by omega), Int.neg_neg]

theorem utf8Length_bytes {chars : List Char} :
    utf8Length chars = chars.length ↔ ∀ char ∈ chars, char.utf8Size = 1 := by
  induction chars with
  | nil => exact ⟨fun _ _ member => absurd member List.not_mem_nil, fun _ => rfl⟩
  | cons char rest ih =>
    have positive := char.utf8Size_pos
    have least := length_le_utf8Length rest
    have split : utf8Length (char :: rest) = char.utf8Size + utf8Length rest :=
      weight_cons _ char rest
    rw [List.forall_mem_cons, ← ih, split, List.length_cons]
    omega

theorem pythonTail_longest_iff (text : String) (limit : Int) :
    LongestSuffix text.toList limit (pythonTail text limit).toList ↔ CharsAreBytes text limit := by
  unfold pythonTail CharsAreBytes
  rw [utf8Length_toList]
  by_cases fits : (utf8Length text.toList : Int) ≤ limit
  · rw [if_neg (by omega)]
    exact ⟨fun _ => ⟨by omega, .inl fits⟩, fun _ => longest_whole fits⟩
  · rw [if_pos (by omega), String.toList_ofList]
    generalize text.toList = chars at fits
    constructor
    · intro law
      have short := law.fits
      have positive : 0 < limit := by
        by_contra low
        have none : limit = 0 := by omega
        rw [none] at short fits
        exact fits short
      rw [drop_of_nonneg positive] at short
      have enough : limit ≤ chars.length := by
        by_contra few
        have all : chars.length - limit.toNat = 0 := by omega
        rw [all, List.drop_zero] at short
        exact fits short
      refine ⟨by omega, .inr ⟨positive, enough, ?_⟩⟩
      apply utf8Length_bytes.mp
      have least := length_le_utf8Length (chars.drop (chars.length - limit.toNat))
      rw [List.length_drop] at least ⊢
      omega
    · rintro ⟨_, whole | ⟨positive, enough, bytes⟩⟩
      · exact absurd whole fits
      · rw [drop_of_nonneg positive]
        have length := utf8Length_bytes.mpr bytes
        rw [List.length_drop] at length
        apply longest_of_bytes (List.drop_suffix _ _) (by omega)
        intro other _ short
        omega

/-! ### The rings -/

theorem weight_join (texts : List String) :
    weight String.utf8ByteSize texts = (String.join texts).utf8ByteSize := by
  induction texts with
  | nil => rfl
  | cons text rest ih => rw [weight_cons, String.join_cons, String.utf8ByteSize_append, ih]

theorem join_suffix {items log : List String} (suffix : items <:+ log) :
    (String.join items).toList <:+ (String.join log).toList := by
  obtain ⟨older, rfl⟩ := suffix
  rw [String.toList_join, String.toList_join, List.flatMap_append]
  exact List.suffix_append _ _

theorem foldl_ends (log : List String) : ∀ {before : List String} {ring : Tail String},
    Ends String.utf8ByteSize maxScrollback before ring →
      Ends String.utf8ByteSize maxScrollback (before ++ log) (log.foldl appendScrollback ring) := by
  induction log with
  | nil =>
    intro before ring ends
    rwa [List.append_nil]
  | cons text log ih =>
    intro before ring ends
    have next := ih (ends.push _ _ text)
    rwa [List.append_assoc] at next

theorem python_ends (log : List String) :
    Ends String.utf8ByteSize maxScrollback log (log.foldl appendScrollback .empty) :=
  foldl_ends log (RollingTail.ends_empty _ _)

/-- The Rust ring is that of the texts that are not empty. -/
theorem rust_ring (log : List String) : ∀ ring, log.foldl rustAppend ring =
    (log.filter (· ≠ "")).foldl appendScrollback ring := by
  induction log with
  | nil => exact fun _ => rfl
  | cons text log ih =>
    intro ring
    rw [List.foldl_cons, rustAppend]
    by_cases empty : text = ""
    · rw [if_pos empty, ih, List.filter_cons_of_neg (by simp [empty])]
    · rw [if_neg empty, ih, List.filter_cons_of_pos (by simp [empty])]
      rfl

theorem filter_join (log : List String) :
    String.join (log.filter (· ≠ "")) = String.join log := by
  induction log with
  | nil => rfl
  | cons text log ih =>
    by_cases empty : text = ""
    · rw [List.filter_cons_of_neg (by simp [empty]), ih, String.join_cons, empty,
        String.empty_append]
    · rw [List.filter_cons_of_pos (by simp [empty]), String.join_cons, String.join_cons, ih]

theorem Replays.ofEnds {log texts : List String} {ring : Tail String} {limit : Int}
    {answer : String} (ends : Ends String.utf8ByteSize maxScrollback log ring)
    (same : String.join log = String.join texts)
    (answered : LongestSuffix (String.join ring.items).toList limit answer.toList) :
    Replays maxScrollback texts ring limit answer where
  counted := ends.counted.trans (weight_join _)
  capped := ends.capped
  retained := same ▸ join_suffix ends.suffix
  answered := answered

/-! ### Both runtimes -/

variable (runtime : Runtime) (numerals : Numerals)

theorem pythonOutput_asked {payload : Dict} {limit : Int} (asked : Asks payload limit)
    (ring : Tail String) : pythonOutput runtime numerals (some ring) payload =
      .ok (pythonTail (scrollbackText ring) limit) := by
  rcases asked with given | ⟨absent, rfl⟩
  · rw [pythonOutput, given]
    rfl
  · rw [pythonOutput, absent]
    rfl

/-- A limit that is no `u64` is above the cap. -/
theorem rustOutput_longest {payload : Dict} {limit : Int} (asked : Asks payload limit)
    (nonneg : 0 ≤ limit) {ring : Tail String}
    (capped : (String.join ring.items).utf8ByteSize ≤ maxScrollbackBytes) :
    LongestSuffix (String.join ring.items).toList limit (rustOutput (some ring) payload).toList := by
  have cut := rustTail_longest (String.join ring.items)
  rcases asked with given | ⟨absent, rfl⟩
  · rw [rustOutput, given]
    by_cases fits : limit < 2 ^ 64
    · have read : asU64 (some (.int limit)) = some limit.toNat := if_pos ⟨nonneg, fits⟩
      have length : (limit.toNat : Int) = limit := Int.toNat_of_nonneg nonneg
      have law := cut limit.toNat
      rw [length] at law
      rw [read]
      exact law
    · have large : asU64 (some (.int limit)) = none := if_neg fun range => fits range.2
      rw [large, Option.getD_none, rustTail, if_neg (Nat.not_lt.mpr capped)]
      apply longest_whole
      rw [← utf8Length_toList]
      unfold maxScrollbackBytes at capped
      omega
  · rw [rustOutput, absent]
    exact cut maxScrollbackBytes

/-- The law for the texts of a session and a request, in both runtimes. -/
def BothReplay (log : List String) (payload : Dict) (limit : Int) : Prop :=
  (∃ answer, pythonOutput runtime numerals (some (log.foldl appendScrollback .empty)) payload =
      .ok answer ∧ Replays maxScrollback log (log.foldl appendScrollback .empty) limit answer) ∧
    Replays maxScrollbackBytes log (log.foldl rustAppend .empty) limit
      (rustOutput (some (log.foldl rustAppend .empty)) payload)

theorem replays_iff {payload : Dict} {limit : Int} (asked : Asks payload limit)
    (log : List String) : BothReplay runtime numerals log payload limit ↔
      CharsAreBytes (scrollbackText (log.foldl appendScrollback .empty)) limit := by
  have python := pythonOutput_asked runtime numerals asked (log.foldl appendScrollback .empty)
  constructor
  · rintro ⟨⟨answer, answered, replays⟩, _⟩
    rw [python] at answered
    cases answered
    exact (pythonTail_longest_iff _ _).mp replays.answered
  · intro bytes
    have rust := python_ends (log.filter (· ≠ ""))
    refine ⟨⟨_, python, .ofEnds (python_ends log) rfl ?_⟩, ?_⟩
    · exact (pythonTail_longest_iff _ _).mpr bytes
    · rw [rust_ring]
      refine .ofEnds rust (filter_join log) ?_
      apply rustOutput_longest asked bytes.1
      rw [← weight_join, ← rust.counted]
      exact rust.capped

def askThree : Dict where
  entries := [("max_bytes", .int 3)]
  nodup := by decide

theorem ascii_replays : BothReplay plainRuntime asciiNumerals ["ab", "cd"] askThree 3 := by
  have asked : Asks askThree 3 := .inl rfl
  have narrow : ((scrollbackText (["ab", "cd"].foldl appendScrollback .empty)).toList.drop 1).all
      (fun char => decide (char.utf8Size = 1)) = true :=
    rfl
  refine (replays_iff plainRuntime asciiNumerals asked ["ab", "cd"]).mpr
    ⟨by decide, .inr ⟨by decide, by decide, fun char held => ?_⟩⟩
  exact of_decide_eq_true (List.all_eq_true.mp narrow char held)

def askNothing : Dict where
  entries := [("max_bytes", .int 0)]
  nodup := by decide

/-- For a limit of zero Python answers the whole scrollback. -/
theorem zero_bytes_replay_everything :
    ¬BothReplay plainRuntime asciiNumerals ["ab"] askNothing 0 := by
  rintro ⟨⟨answer, answered, replays⟩, _⟩
  have whole : pythonOutput plainRuntime asciiNumerals
      (some (["ab"].foldl appendScrollback .empty)) askNothing = .ok "ab" := rfl
  rw [whole] at answered
  cases answered
  have fits := replays.answered.fits
  revert fits
  decide

end Fantastic.Parity.Scrollback
