import Fantastic.Foundation.Utf8

/-!
# Lossy UTF-8 decoding

`bytes.decode("utf-8", "replace")`: what is well formed decodes to itself, and every
maximal subpart of an ill-formed sequence becomes one U+FFFD. The results are about
the bytes of a text and about a prefix of them, which may end inside a character.
-/

namespace Fantastic

def replacementChar : Char := '\uFFFD'

def tailRange : Nat × Nat := (0x80, 0xBF)

/-- The ranges of the bytes that may follow a lead byte. A byte that starts no
character is followed by nothing. -/
def followers (lead : UInt8) : List (Nat × Nat) :=
  if lead.toNat < 0xC2 then []
  else if lead.toNat < 0xE0 then [tailRange]
  else if lead.toNat = 0xE0 then [(0xA0, 0xBF), tailRange]
  else if lead.toNat = 0xED then [(0x80, 0x9F), tailRange]
  else if lead.toNat < 0xF0 then [tailRange, tailRange]
  else if lead.toNat = 0xF0 then [(0x90, 0xBF), tailRange, tailRange]
  else if lead.toNat < 0xF4 then [tailRange, tailRange, tailRange]
  else if lead.toNat = 0xF4 then [(0x80, 0x8F), tailRange, tailRange]
  else []

/-- How many of the bytes go on with the character that was begun. -/
def matched : List (Nat × Nat) → List UInt8 → Nat
  | (low, high) :: ranges, byte :: bytes =>
    if low ≤ byte.toNat ∧ byte.toNat ≤ high then matched ranges bytes + 1 else 0
  | _, _ => 0

def decodeReplace : List UInt8 → List Char
  | [] => []
  | lead :: rest =>
    match (lead :: rest).toByteArray.utf8DecodeChar? 0 with
    | some char => char :: decodeReplace (rest.drop (char.utf8Size - 1))
    | none => replacementChar :: decodeReplace (rest.drop (matched (followers lead) rest))
termination_by bytes => bytes.length
decreasing_by
  all_goals
    simp only [List.length_drop, List.length_cons]
    omega

theorem matched_take (ranges : List (Nat × Nat)) (bytes : List UInt8) (count : Nat)
    (complete : matched ranges bytes = bytes.length) :
    matched ranges (bytes.take count) = (bytes.take count).length := by
  induction bytes generalizing ranges count with
  | nil => simpa using complete
  | cons byte bytes ih =>
    cases count with
    | zero => cases ranges <;> rfl
    | succ count =>
      cases ranges with
      | nil => simp [matched] at complete
      | cons range ranges =>
        simp only [matched, List.length_cons] at complete
        split at complete
        case isFalse => omega
        case isTrue inRange =>
          have rest := ih ranges count (by omega)
          simp only [List.take_succ_cons, matched, if_pos inRange, List.length_cons, rest]

private theorem followed_two (lead second : UInt8) (low : 0xC2 ≤ lead.toNat)
    (high : lead.toNat < 0xE0) (secondTail : 0x80 ≤ second.toNat ∧ second.toNat ≤ 0xBF) :
    matched (followers lead) [second] = 1 := by
  unfold followers
  rw [if_neg (by omega), if_pos high]
  simp [matched, tailRange, secondTail]

private theorem followed_three (lead second third : UInt8) (low : 0xE0 ≤ lead.toNat)
    (high : lead.toNat < 0xF0) (secondTail : 0x80 ≤ second.toNat ∧ second.toNat ≤ 0xBF)
    (notOverlong : lead.toNat = 0xE0 → 0xA0 ≤ second.toNat)
    (notSurrogate : lead.toNat = 0xED → second.toNat ≤ 0x9F)
    (thirdTail : 0x80 ≤ third.toNat ∧ third.toNat ≤ 0xBF) :
    matched (followers lead) [second, third] = 2 := by
  unfold followers
  rw [if_neg (by omega), if_neg (by omega)]
  split_ifs with atE0 atED
  · simp [matched, tailRange, notOverlong atE0, secondTail, thirdTail]
  · simp [matched, tailRange, notSurrogate atED, secondTail, thirdTail]
  · simp [matched, tailRange, secondTail, thirdTail]

private theorem followed_four (lead second third fourth : UInt8) (low : 0xF0 ≤ lead.toNat)
    (high : lead.toNat ≤ 0xF4) (secondTail : 0x80 ≤ second.toNat ∧ second.toNat ≤ 0xBF)
    (notOverlong : lead.toNat = 0xF0 → 0x90 ≤ second.toNat)
    (notBeyond : lead.toNat = 0xF4 → second.toNat ≤ 0x8F)
    (thirdTail : 0x80 ≤ third.toNat ∧ third.toNat ≤ 0xBF)
    (fourthTail : 0x80 ≤ fourth.toNat ∧ fourth.toNat ≤ 0xBF) :
    matched (followers lead) [second, third, fourth] = 3 := by
  unfold followers
  rw [if_neg (by omega), if_neg (by omega), if_neg (by omega), if_neg (by omega),
    if_neg (by omega)]
  split_ifs with atF0 below atF4
  · simp [matched, tailRange, notOverlong atF0, secondTail, thirdTail, fourthTail]
  · simp [matched, tailRange, secondTail, thirdTail, fourthTail]
  · simp [matched, tailRange, notBeyond atF4, secondTail, thirdTail, fourthTail]
  · omega

/-- The bytes of one character are a lead byte and all that may follow it. -/
theorem encoded_char_matched (char : Char) :
    ∃ lead tail, String.utf8EncodeChar char = lead :: tail ∧
      matched (followers lead) tail = tail.length := by
  have scalar := char.valid
  simp only [UInt32.isValidChar, Nat.isValidChar] at scalar
  generalize value_eq : char.val.toNat = value at scalar
  have byte (number : Nat) (small : number < 256) : (UInt8.ofNat number).toNat = number :=
    UInt8.toNat_ofNat_of_lt' small
  unfold String.utf8EncodeChar
  simp only [value_eq]
  -- the branches of the encoder: one, two, three and four bytes
  split
  · refine ⟨_, [], rfl, ?_⟩
    cases followers _ <;> rfl
  split
  · refine ⟨_, _, rfl, ?_⟩
    apply followed_two <;> simp only [byte (value / 64 % 32 + 192) (by omega),
      byte (value % 64 + 128) (by omega)] <;> omega
  split
  · refine ⟨_, _, rfl, ?_⟩
    apply followed_three <;> simp only [byte (value / 4096 % 16 + 224) (by omega),
      byte (value / 64 % 64 + 128) (by omega), byte (value % 64 + 128) (by omega)] <;> omega
  · refine ⟨_, _, rfl, ?_⟩
    apply followed_four <;> simp only [byte (value / 262144 % 8 + 240) (by omega),
      byte (value / 4096 % 64 + 128) (by omega), byte (value / 64 % 64 + 128) (by omega),
      byte (value % 64 + 128) (by omega)] <;> omega

theorem decodeReplace_encoded_append (char : Char) (rest : List UInt8) :
    decodeReplace (String.utf8EncodeChar char ++ rest) = char :: decodeReplace rest := by
  obtain ⟨lead, tail, encoded, -⟩ := encoded_char_matched char
  have size : tail.length + 1 = char.utf8Size := by
    rw [← String.length_utf8EncodeChar, encoded, List.length_cons]
  have decoded : (lead :: (tail ++ rest)).toByteArray.utf8DecodeChar? 0 = some char := by
    rw [← List.cons_append, ← encoded, List.toByteArray_append]
    exact ByteArray.utf8DecodeChar?_utf8EncodeChar_append
  rw [encoded, List.cons_append, decodeReplace, decoded]
  have skipped : (tail ++ rest).drop (char.utf8Size - 1) = rest := by
    rw [← size, Nat.add_sub_cancel, List.drop_left]
  simp only [skipped]

/-- No proper part of a character's bytes decodes to a character. -/
theorem cut_char_undecodable (char : Char) (count : Nat) (cut : count < char.utf8Size) :
    ((String.utf8EncodeChar char).take count).toByteArray.utf8DecodeChar? 0 = none := by
  cases decoded : ((String.utf8EncodeChar char).take count).toByteArray.utf8DecodeChar? 0 with
  | none => rfl
  | some other =>
    obtain ⟨rest, split⟩ := ByteArray.exists_of_utf8DecodeChar?_eq_some decoded
    have whole : (String.utf8EncodeChar char).toByteArray =
        (String.utf8EncodeChar other).toByteArray ++
          (rest ++ ((String.utf8EncodeChar char).drop count).toByteArray) := by
      rw [← ByteArray.append_assoc, ← split, ← List.toByteArray_append, List.take_append_drop]
    have same : char = other := by
      have left := @ByteArray.utf8DecodeChar?_utf8EncodeChar_append ByteArray.empty char
      rw [ByteArray.append_empty, whole, ByteArray.utf8DecodeChar?_utf8EncodeChar_append] at left
      exact (Option.some.inj left).symm
    have sizes := congrArg ByteArray.size split
    rw [ByteArray.size_append, List.size_toByteArray, List.size_toByteArray, List.length_take,
      String.length_utf8EncodeChar, String.length_utf8EncodeChar, ← same] at sizes
    omega

/-- A character cut off at the end of the input is one U+FFFD. -/
theorem decodeReplace_cut_char (char : Char) (count : Nat) (begun : 0 < count)
    (cut : count < char.utf8Size) :
    decodeReplace ((String.utf8EncodeChar char).take count) = [replacementChar] := by
  obtain ⟨lead, tail, encoded, complete⟩ := encoded_char_matched char
  have undecodable := cut_char_undecodable char count cut
  obtain ⟨count, rfl⟩ : ∃ below, count = below + 1 := ⟨count - 1, by omega⟩
  rw [encoded, List.take_succ_cons] at undecodable ⊢
  rw [decodeReplace, undecodable]
  simp only [matched_take _ _ count complete, List.drop_length, decodeReplace]

private theorem encoded_length_of_last (chars : List Char)
    (last : chars.getLast? = some replacementChar) :
    3 ≤ (chars.flatMap String.utf8EncodeChar).length := by
  obtain ⟨front, rfl⟩ := List.getLast?_eq_some_iff.mp last
  have size : (String.utf8EncodeChar replacementChar).length = 3 := by decide
  simp only [List.flatMap_append, List.flatMap_cons, List.flatMap_nil, List.append_nil,
    List.length_append, size]
  omega

/-- A prefix of a text's bytes decodes to the whole text when nothing is missing, or
when all that is missing is the end of a U+FFFD at the end of the text. -/
theorem decodeReplace_take_eq_iff (chars : List Char) (count : Nat) :
    decodeReplace ((chars.flatMap String.utf8EncodeChar).take count) = chars ↔
      (chars.flatMap String.utf8EncodeChar).length ≤ count ∨
        (chars.getLast? = some replacementChar ∧
          (chars.flatMap String.utf8EncodeChar).length ≤ count + 2) := by
  induction chars generalizing count with
  | nil => simp [decodeReplace]
  | cons char chars ih =>
    have size := String.length_utf8EncodeChar char
    have positive := char.utf8Size_pos
    rw [List.flatMap_cons, List.take_append, size, List.length_append, size]
    by_cases whole : char.utf8Size ≤ count
    · have counted := ih (count - char.utf8Size)
      rw [List.take_of_length_le (by omega), decodeReplace_encoded_append, List.cons.injEq,
        counted]
      cases chars with
      | nil => simp [whole]
      | cons next chars =>
        rw [List.getLast?_cons_cons]
        constructor
        · rintro ⟨-, fits | ⟨last, fits⟩⟩
          · exact Or.inl (by omega)
          · exact Or.inr ⟨last, by omega⟩
        · rintro (fits | ⟨last, fits⟩)
          · exact ⟨rfl, Or.inl (by omega)⟩
          · exact ⟨rfl, Or.inr ⟨last, by omega⟩⟩
    · have nothing : count - char.utf8Size = 0 := by omega
      rw [nothing, List.take_zero, List.append_nil]
      by_cases begun : 0 < count
      · rw [decodeReplace_cut_char char count begun (by omega), List.cons.injEq]
        constructor
        · rintro ⟨rfl, rfl⟩
          have three : replacementChar.utf8Size = 3 := by decide
          exact Or.inr ⟨rfl, by simp only [List.flatMap_nil, List.length_nil]; omega⟩
        · rintro (fits | ⟨last, fits⟩)
          · omega
          · cases chars with
            | nil =>
              rw [List.getLast?_singleton, Option.some.injEq] at last
              exact ⟨last.symm, rfl⟩
            | cons next chars =>
              rw [List.getLast?_cons_cons] at last
              have long := encoded_length_of_last _ last
              omega
      · have none : count = 0 := by omega
        subst none
        constructor
        · intro decoded
          simp [decodeReplace] at decoded
        · rintro (fits | ⟨last, fits⟩)
          · omega
          · have long := encoded_length_of_last _ last
            rw [List.flatMap_cons, List.length_append, size] at long
            omega

end Fantastic
