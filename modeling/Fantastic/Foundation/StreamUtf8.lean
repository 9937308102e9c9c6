import Fantastic.Foundation.LossyUtf8

/-!
# Lossy decoding of a byte stream

What a decoder of a stream can put out before the stream ends: as `decodeReplace`, except
that a character that is cut off at the end is held back until more bytes come. More bytes
never change what was put out.
-/

namespace Fantastic

/-- The bytes after a lead byte end inside the character it begins. -/
def Pending (lead : UInt8) (rest : List UInt8) : Prop :=
  matched (followers lead) rest = rest.length ∧ rest.length < (followers lead).length

instance (lead : UInt8) (rest : List UInt8) : Decidable (Pending lead rest) :=
  inferInstanceAs (Decidable (_ ∧ _))

/-- The lossy decoding up to the last complete character. -/
def decodeStream : List UInt8 → List Char
  | [] => []
  | lead :: rest =>
    match (lead :: rest).toByteArray.utf8DecodeChar? 0 with
    | some char => char :: decodeStream (rest.drop (char.utf8Size - 1))
    | none =>
      if Pending lead rest then []
      else replacementChar :: decodeStream (rest.drop (matched (followers lead) rest))
termination_by bytes => bytes.length
decreasing_by
  all_goals
    simp only [List.length_drop, List.length_cons]
    omega

/-- A lead byte is followed by as many bytes as its ranges say; one that stands alone is
below 0x80. -/
theorem encoded_char_lead {char : Char} {lead : UInt8} {tail : List UInt8}
    (encoded : String.utf8EncodeChar char = lead :: tail) :
    (followers lead).length = tail.length ∧ (tail = [] → lead.toNat < 0x80) := by
  have scalar := char.valid
  simp only [UInt32.isValidChar, Nat.isValidChar] at scalar
  generalize value_eq : char.val.toNat = value at scalar
  have byte (number : Nat) (small : number < 256) : (UInt8.ofNat number).toNat = number :=
    UInt8.toNat_ofNat_of_lt' small
  unfold String.utf8EncodeChar at encoded
  simp only [value_eq] at encoded
  -- the branches of the encoder: one, two, three and four bytes
  split at encoded
  case isTrue =>
      obtain ⟨rfl, rfl⟩ := List.cons.inj encoded
      have number := byte value (by omega)
      constructor
      · unfold followers
        rw [if_pos (by omega)]
        rfl
      · intro _
        omega
  split at encoded
  case isTrue =>
      obtain ⟨rfl, rfl⟩ := List.cons.inj encoded
      have number := byte (value / 64 % 32 + 192) (by omega)
      refine ⟨?_, fun none => absurd none (List.cons_ne_nil _ _)⟩
      unfold followers
      rw [if_neg (by omega), if_pos (by omega)]
      rfl
  split at encoded
  case isTrue =>
      obtain ⟨rfl, rfl⟩ := List.cons.inj encoded
      have number := byte (value / 4096 % 16 + 224) (by omega)
      refine ⟨?_, fun none => absurd none (List.cons_ne_nil _ _)⟩
      unfold followers
      rw [if_neg (by omega), if_neg (by omega)]
      split_ifs
      · rfl
      · rfl
      · rfl
      all_goals omega
  · obtain ⟨rfl, rfl⟩ := List.cons.inj encoded
    have number := byte (value / 262144 % 8 + 240) (by omega)
    refine ⟨?_, fun none => absurd none (List.cons_ne_nil _ _)⟩
    unfold followers
    rw [if_neg (by omega), if_neg (by omega), if_neg (by omega), if_neg (by omega),
      if_neg (by omega)]
    split_ifs
    · rfl
    · rfl
    · rfl
    · omega

theorem matched_le (ranges : List (Nat × Nat)) (bytes : List UInt8) :
    matched ranges bytes ≤ ranges.length ∧ matched ranges bytes ≤ bytes.length := by
  fun_induction matched ranges bytes with
  | case1 low high ranges byte bytes inRange ih =>
    simp only [List.length_cons]
    omega
  | case2 low high ranges byte bytes outside => exact ⟨Nat.zero_le _, Nat.zero_le _⟩
  | case3 ranges bytes none => exact ⟨Nat.zero_le _, Nat.zero_le _⟩

/-- More bytes go on with a character only where all the bytes before did. -/
theorem matched_append (ranges : List (Nat × Nat)) (bytes more : List UInt8)
    (decided : ¬ (matched ranges bytes = bytes.length ∧ bytes.length < ranges.length)) :
    matched ranges (bytes ++ more) = matched ranges bytes := by
  induction bytes generalizing ranges with
  | nil =>
    cases ranges with
    | nil => simp [matched]
    | cons range ranges => exact absurd ⟨by simp [matched], Nat.succ_pos _⟩ decided
  | cons byte bytes ih =>
    cases ranges with
    | nil => simp [matched]
    | cons range ranges =>
      simp only [matched, List.cons_append, List.length_cons] at decided ⊢
      by_cases inRange : range.1 ≤ byte.toNat ∧ byte.toNat ≤ range.2
      · rw [if_pos inRange] at decided
        rw [if_pos inRange, if_pos inRange, ih ranges (by omega)]
      · rw [if_neg inRange, if_neg inRange]

/-- A character is decoded exactly from its own bytes. -/
theorem decodeChar_eq_some_iff (bytes : List UInt8) (char : Char) :
    bytes.toByteArray.utf8DecodeChar? 0 = some char ↔
      String.utf8EncodeChar char <+: bytes := by
  constructor
  · intro decoded
    obtain ⟨rest, split⟩ := ByteArray.exists_of_utf8DecodeChar?_eq_some decoded
    refine ⟨rest.data.toList, ?_⟩
    have whole := congrArg (fun array : ByteArray => array.data.toList) split
    simpa using whole.symm
  · intro start
    obtain ⟨rest, rfl⟩ := start
    rw [List.toByteArray_append]
    exact ByteArray.utf8DecodeChar?_utf8EncodeChar_append

theorem decodeChar_append {bytes : List UInt8} {char : Char} (more : List UInt8)
    (decoded : bytes.toByteArray.utf8DecodeChar? 0 = some char) :
    (bytes ++ more).toByteArray.utf8DecodeChar? 0 = some char := by
  rw [decodeChar_eq_some_iff] at decoded ⊢
  exact decoded.trans (List.prefix_append bytes more)

/-- What is no character and not the beginning of one stays so. -/
theorem decodeChar_append_none {lead : UInt8} {rest : List UInt8} (more : List UInt8)
    (decoded : (lead :: rest).toByteArray.utf8DecodeChar? 0 = none)
    (decided : ¬ Pending lead rest) :
    (lead :: (rest ++ more)).toByteArray.utf8DecodeChar? 0 = none := by
  apply Option.eq_none_iff_forall_ne_some.mpr
  intro char found
  rw [decodeChar_eq_some_iff] at found
  obtain ⟨first, tail, encoded, complete⟩ := encoded_char_matched char
  have bound := (encoded_char_lead encoded).1
  rw [encoded, List.cons_prefix_cons] at found
  obtain ⟨rfl, start⟩ := found
  by_cases inside : tail.length ≤ rest.length
  · have whole : String.utf8EncodeChar char <+: first :: rest := by
      rw [encoded, List.cons_prefix_cons]
      exact ⟨rfl, List.prefix_of_prefix_length_le start (List.prefix_append rest more) inside⟩
    rw [(decodeChar_eq_some_iff _ char).mpr whole] at decoded
    exact absurd decoded (Option.some_ne_none char)
  · have cut : rest <+: tail :=
      List.prefix_of_prefix_length_le (List.prefix_append rest more) start (by omega)
    apply decided
    rw [List.prefix_iff_eq_take.mp cut]
    constructor
    · exact matched_take _ _ _ complete
    · rw [List.length_take]
      omega

/-- What was put out stands whatever comes after. -/
theorem decodeStream_prefix (bytes more : List UInt8) :
    decodeStream bytes <+: decodeStream (bytes ++ more) := by
  fun_induction decodeStream bytes with
  | case1 => exact List.nil_prefix
  | case2 lead rest char decoded ih =>
    have whole := (decodeChar_eq_some_iff _ _).mp decoded
    have inside : char.utf8Size - 1 ≤ rest.length := by
      have size := whole.length_le
      rw [String.length_utf8EncodeChar, List.length_cons] at size
      omega
    rw [List.cons_append, decodeStream, ← List.cons_append, decodeChar_append more decoded]
    rw [← List.drop_append_of_le_length inside] at ih
    exact List.cons_prefix_cons.mpr ⟨rfl, ih⟩
  | case3 lead rest decoded pending => exact List.nil_prefix
  | case4 lead rest decoded decided ih =>
    rw [List.cons_append, decodeStream, decodeChar_append_none more decoded decided]
    have same := matched_append (followers lead) rest more decided
    have settled : ¬ Pending lead (rest ++ more) := by
      intro pending
      have bound := matched_le (followers lead) rest
      have total := pending.1
      rw [same, List.length_append] at total
      apply decided
      exact ⟨by omega, by have := pending.2; rw [List.length_append] at this; omega⟩
    rw [← List.drop_append_of_le_length (matched_le (followers lead) rest).2] at ih
    simp only [if_neg settled, same]
    exact List.cons_prefix_cons.mpr ⟨rfl, ih⟩

/-- A byte that begins no character is one U+FFFD wherever it stands. -/
theorem decodeStream_malformed {lead : UInt8} (alone : followers lead = [])
    (high : 0x80 ≤ lead.toNat) (rest : List UInt8) :
    decodeStream (lead :: rest) = replacementChar :: decodeStream rest := by
  have decoded : (lead :: rest).toByteArray.utf8DecodeChar? 0 = none := by
    apply Option.eq_none_iff_forall_ne_some.mpr
    intro char found
    rw [decodeChar_eq_some_iff] at found
    obtain ⟨first, tail, encoded, complete⟩ := encoded_char_matched char
    have bound := encoded_char_lead encoded
    rw [encoded, List.cons_prefix_cons] at found
    obtain ⟨rfl, start⟩ := found
    rw [alone] at bound
    have low := bound.2 (List.length_eq_zero_iff.mp bound.1.symm)
    omega
  have decided : ¬ Pending lead rest := by
    intro pending
    have short := pending.2
    rw [alone] at short
    exact Nat.not_lt_zero _ short
  rw [decodeStream, decoded]
  simp only [if_neg decided, alone, matched, List.drop_zero]

end Fantastic
