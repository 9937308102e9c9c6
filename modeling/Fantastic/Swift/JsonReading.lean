import Fantastic.Swift.JsonBytes

/-!
# What the JSON reader takes

The scanner reads exactly the texts of rules that are wider than those of RFC 8259: a string may
hold any character as it is, and a number is what the number loop takes and the library converts.
It stops on every input.
-/

namespace Fantastic.Swift.JsonBytes

open JsonSyntax
open JsonGrammar (isNumeral startsNumber)

/-! ### Blanks -/

theorem blanks_skip (bytes : List UInt8) : Blanks bytes (skipWhitespace bytes) := by
  refine ⟨bytes.takeWhile isBlank, List.takeWhile_append_dropWhile.symm, ?_⟩
  intro byte member
  exact List.mem_takeWhile_imp member

theorem skip_blanks {bytes rest : List UInt8} (blanks : Blanks bytes rest) :
    skipWhitespace bytes = skipWhitespace rest := by
  obtain ⟨front, rfl, blank⟩ := blanks
  exact List.dropWhile_append_of_pos blank

theorem skip_open {byte : UInt8} (plain : isBlank byte = false) (rest : List UInt8) :
    skipWhitespace (byte :: rest) = byte :: rest := by
  simp [skipWhitespace, plain]

theorem blanks_length {bytes rest : List UInt8} (blanks : Blanks bytes rest) :
    rest.length ≤ bytes.length := by
  obtain ⟨front, rfl, _⟩ := blanks
  rw [List.length_append]
  omega

theorem blanks_follows {bytes rest : List UInt8} (blanks : Blanks bytes rest)
    (follows : Follows rest) : Follows bytes := by
  obtain ⟨front, rfl, blank⟩ := blanks
  cases front with
  | nil => exact follows
  | cons first front =>
    intro byte head
    cases head
    have here := blank _ List.mem_cons_self
    simp only [isBlank, Bool.or_eq_true, decide_eq_true_eq] at here
    rcases here with ((rfl | rfl) | rfl) | rfl <;> decide

theorem follows_cons {byte : UInt8} (apart : isNumeral (latin byte) = false) (rest : List UInt8) :
    Follows (byte :: rest) := by
  intro other head
  cases head
  exact apart

/-! ### What is read is a text -/

section Reading

variable {Double : Type} (doubles : Doubles Double) (canon : String → String)

/-- The rules of RFC 8259. -/
def rfc : Rules (Numeral Double) where
  plain := fun char => 0x20 ≤ char.toNat
  number := RfcNumber doubles

/-- The wider rules of the scanner: any character may stand in a string as it is, and numbers are
loose. -/
def loose : Rules (Numeral Double) where
  plain := fun _ => True
  number := LooseNumber doubles

variable {doubles canon}

theorem expectLiteral_ok {literal bytes rest : List UInt8}
    (read : expectLiteral literal bytes = .ok ((), rest)) : bytes = literal ++ rest := by
  unfold expectLiteral at read
  split at read
  case isTrue begins =>
    obtain ⟨more, rfl⟩ := begins
    rw [List.drop_left'] at read
    · cases read
      rfl
    · rfl
  case isFalse => cases read

theorem parseItems_sound {parse : List UInt8 → Except Stop (Read (Json Double))}
    (sound : ∀ bytes value rest, parse bytes = .ok (value, rest) → ∃ raw start,
      Blanks bytes start ∧ Reads (loose doubles) .value start raw rest ∧ value = raw.merged canon)
    {fuel : Nat} {bytes rest : List UInt8} {items : List (Json Double)}
    (read : parseItems parse fuel bytes = .ok (items, rest)) :
    ∃ raws, Reads (loose doubles) .items bytes (.array raws) (0x5D :: rest) ∧
      items = raws.map (Tree.merged canon) := by
  induction fuel generalizing bytes rest items with
  | zero => cases read
  | succ fuel ih =>
    rw [parseItems] at read
    obtain ⟨⟨item, stop⟩, first, read⟩ := bind_ok_iff.mp read
    obtain ⟨raw, start, before, spelled, rfl⟩ := sound _ _ _ first
    have after := blanks_skip stop
    simp only at read
    split at read
    case h_1 => cases read
    case h_2 byte next shape =>
      rw [shape] at after
      split_ifs at read with closes comma
      · cases read
        rw [closes] at after
        exact ⟨[raw], .lastItem before spelled after, rfl⟩
      · obtain ⟨⟨others, last⟩, later, read⟩ := bind_ok_iff.mp read
        obtain ⟨raws, more, rfl⟩ := ih later
        cases read
        rw [comma] at after
        exact ⟨raw :: raws, .item before spelled after more, rfl⟩

theorem parseMembers_sound {parse : List UInt8 → Except Stop (Read (Json Double))}
    (sound : ∀ bytes value rest, parse bytes = .ok (value, rest) → ∃ raw start,
      Blanks bytes start ∧ Reads (loose doubles) .value start raw rest ∧ value = raw.merged canon)
    {fuel : Nat} {bytes rest : List UInt8} {members : List (String × Json Double)}
    (read : parseMembers parse fuel bytes = .ok (members, rest)) :
    ∃ raws, Reads (loose doubles) .members bytes (.object raws) (0x7D :: rest) ∧
      members = raws.map (Prod.map id (Tree.merged canon)) := by
  induction fuel generalizing bytes rest members with
  | zero => cases read
  | succ fuel ih =>
    have before := blanks_skip bytes
    rw [parseMembers] at read
    split at read
    case h_1 named opened =>
      rw [opened] at before
      obtain ⟨⟨key, colon⟩, quoted, read⟩ := bind_ok_iff.mp read
      have between := blanks_skip colon
      simp only at read
      split at read
      case h_1 afterColon parted =>
        rw [parted] at between
        obtain ⟨⟨item, stop⟩, first, read⟩ := bind_ok_iff.mp read
        obtain ⟨raw, start, blank, spelled, rfl⟩ := sound _ _ _ first
        have after := blanks_skip stop
        have key' := parseString_quoted quoted
        simp only at read
        split at read
        case h_1 => cases read
        case h_2 byte next shape =>
          rw [shape] at after
          split_ifs at read with closes comma
          · cases read
            rw [closes] at after
            exact ⟨[(_, raw)], .lastMember before key' between blank spelled after, rfl⟩
          · obtain ⟨⟨others, last⟩, later, read⟩ := bind_ok_iff.mp read
            obtain ⟨raws, more, rfl⟩ := ih later
            cases read
            rw [comma] at after
            exact ⟨(_, raw) :: raws, .member before key' between blank spelled after more, rfl⟩
      case h_2 => cases read
    case h_2 => cases read

theorem parseValue_sound {fuel : Nat} {bytes rest : List UInt8} {value : Json Double}
    (read : parseValue doubles canon fuel bytes = .ok (value, rest)) : ∃ raw start,
      Blanks bytes start ∧ Reads (loose doubles) .value start raw rest ∧
        value = raw.merged canon := by
  induction fuel generalizing bytes rest value with
  | zero => cases read
  | succ fuel ih =>
    have before := blanks_skip bytes
    rw [parseValue] at read
    split at read
    case h_1 => cases read
    case h_2 byte inside opened =>
      rw [opened] at before
      split_ifs at read with brace bracket quote mark mark' mark'' starts
      · subst brace
        unfold parseObject at read
        have blank := blanks_skip inside
        split at read
        case h_1 _ closed =>
          cases read
          rw [closed] at blank
          exact ⟨_, _, before, .noMembers blank, by simp [Tree.merged, keep]⟩
        case h_2 =>
          obtain ⟨⟨members, last⟩, found, read⟩ := bind_ok_iff.mp read
          obtain ⟨raws, spelled, rfl⟩ := parseMembers_sound (fun _ _ _ => ih) found
          cases read
          refine ⟨_, _, before, .object (spelled.before Form.noConfusion blank), ?_⟩
          rw [Tree.merged]
          rfl
      · subst bracket
        unfold parseArray at read
        have blank := blanks_skip inside
        split at read
        case h_1 _ closed =>
          cases read
          rw [closed] at blank
          exact ⟨_, _, before, .noItems blank, by simp [Tree.merged]⟩
        case h_2 =>
          obtain ⟨⟨items, last⟩, found, read⟩ := bind_ok_iff.mp read
          obtain ⟨raws, spelled, rfl⟩ := parseItems_sound (fun _ _ _ => ih) found
          cases read
          refine ⟨_, _, before, .array (spelled.before Form.noConfusion blank), ?_⟩
          rw [Tree.merged]
      · obtain ⟨⟨text, last⟩, found, read⟩ := bind_ok_iff.mp read
        cases read
        rw [quote] at before
        exact ⟨_, _, before, .string (parseString_quoted found), by simp [Tree.merged]⟩
      · obtain ⟨⟨_, last⟩, found, read⟩ := bind_ok_iff.mp read
        cases read
        rw [expectLiteral_ok found] at before
        exact ⟨_, _, before, .true _, by simp [Tree.merged]⟩
      · obtain ⟨⟨_, last⟩, found, read⟩ := bind_ok_iff.mp read
        cases read
        rw [expectLiteral_ok found] at before
        exact ⟨_, _, before, .false _, by simp [Tree.merged]⟩
      · obtain ⟨⟨_, last⟩, found, read⟩ := bind_ok_iff.mp read
        cases read
        rw [expectLiteral_ok found] at before
        exact ⟨_, _, before, .null _, by simp [Tree.merged]⟩
      · have first := starts_iff.mpr starts
        obtain ⟨token, number, rfl, fine, spelled⟩ :=
          @parseNumber_sound _ _ (byte :: inside) _ _ first read
        rw [spelled] at before
        exact ⟨_, _, before, .number fine _, by simp [Tree.merged]⟩

/-! ### Texts are read -/

theorem loose_opens {token : List Char} {number : Numeral Double}
    (fine : LooseNumber doubles token number) (rest : List UInt8) :
    ∃ byte more, encode token ++ rest = byte :: more ∧ startsNumber (latin byte) = true := by
  obtain ⟨starts, whole, _⟩ := fine
  have numerals := (numberToken_spec token).2.1
  rw [whole] at numerals
  cases token with
  | nil => cases starts
  | cons char token =>
    have small := numeral_small (numerals char List.mem_cons_self)
    refine ⟨UInt8.ofNat char.toNat, encode token ++ rest, ?_, ?_⟩
    · rw [encode_cons, encode_ascii small]
      rfl
    · have same : latin (UInt8.ofNat char.toNat) = char := by
        rw [← Char.toNat_inj, latin_toNat, UInt8.toNat_ofNat', Nat.mod_eq_of_lt (by omega)]
      rw [same]
      exact starts

/-- A value starts with a byte that is neither a blank nor a closing bracket. -/
theorem value_opens {start rest : List UInt8} {raw : Json Double}
    (read : Reads (loose doubles) .value start raw rest) :
    ∃ byte more, start = byte :: more ∧ isBlank byte = false ∧ byte ≠ 0x5D := by
  cases read with
  | null => exact ⟨0x6E, _, rfl, rfl, by decide⟩
  | true => exact ⟨0x74, _, rfl, rfl, by decide⟩
  | false => exact ⟨0x66, _, rfl, rfl, by decide⟩
  | number spelled =>
    obtain ⟨byte, more, shape, starts⟩ := loose_opens spelled rest
    refine ⟨byte, more, shape, ?_, ?_⟩
    · have bounds := starts_iff.mp starts
      simp only [isBlank, Bool.or_eq_false_iff, decide_eq_false_iff_not]
      refine ⟨⟨⟨?_, ?_⟩, ?_⟩, ?_⟩ <;> rintro rfl <;> revert bounds <;> decide
    · rintro rfl
      revert starts
      decide
  | string => exact ⟨0x22, _, rfl, rfl, by decide⟩
  | noItems => exact ⟨0x5B, _, rfl, rfl, by decide⟩
  | array => exact ⟨0x5B, _, rfl, rfl, by decide⟩
  | noMembers => exact ⟨0x7B, _, rfl, rfl, by decide⟩
  | object => exact ⟨0x7B, _, rfl, rfl, by decide⟩

theorem reads_length {form : Form} {bytes rest : List UInt8} {raw : Json Double}
    (read : Reads (loose doubles) form bytes raw rest) : rest.length < bytes.length := by
  induction read with
  | null rest =>
    rw [List.length_append]
    exact Nat.lt_add_of_pos_left (by decide)
  | true rest =>
    rw [List.length_append]
    exact Nat.lt_add_of_pos_left (by decide)
  | false rest =>
    rw [List.length_append]
    exact Nat.lt_add_of_pos_left (by decide)
  | number spelled rest =>
    obtain ⟨byte, more, shape, _⟩ := loose_opens spelled []
    rw [List.append_nil] at shape
    rw [List.length_append, shape, List.length_cons]
    omega
  | string quoted =>
    have size := quoted.length
    rw [List.length_cons]
    omega
  | noItems blank =>
    have size := blanks_length blank
    rw [List.length_cons] at size ⊢
    omega
  | array _ ih =>
    rw [List.length_cons] at ih ⊢
    omega
  | lastItem before _ after ih =>
    have first := blanks_length before
    have last := blanks_length after
    omega
  | item before _ after _ here later =>
    have first := blanks_length before
    have last := blanks_length after
    rw [List.length_cons] at last
    omega
  | noMembers blank =>
    have size := blanks_length blank
    rw [List.length_cons] at size ⊢
    omega
  | object _ ih =>
    rw [List.length_cons] at ih ⊢
    omega
  | lastMember before quoted between blank _ after ih =>
    have first := blanks_length before
    have key := quoted.length
    have colon := blanks_length between
    have gap := blanks_length blank
    have last := blanks_length after
    rw [List.length_cons] at first colon
    omega
  | member before quoted between blank _ after _ here later =>
    have first := blanks_length before
    have key := quoted.length
    have colon := blanks_length between
    have gap := blanks_length blank
    have last := blanks_length after
    rw [List.length_cons] at first colon last
    omega

/-- What the scanner does with bytes of each form. -/
def Scanned (doubles : Doubles Double) (canon : String → String) (bytes rest : List UInt8)
    (raw : Json Double) (fuel : Nat) : Form → Prop
  | .value => ∀ pre, skipWhitespace pre = skipWhitespace bytes → Follows rest →
      parseValue doubles canon fuel pre = .ok (raw.merged canon, rest)
  | .items => ∀ pre tail loop raws, skipWhitespace pre = skipWhitespace bytes →
      rest = 0x5D :: tail → bytes.length < loop → raw = .array raws →
      parseItems (parseValue doubles canon fuel) loop pre =
        .ok (raws.map (Tree.merged canon), tail)
  | .members => ∀ pre tail loop raws, skipWhitespace pre = skipWhitespace bytes →
      rest = 0x7D :: tail → bytes.length < loop → raw = .object raws →
      parseMembers (parseValue doubles canon fuel) loop pre =
        .ok (raws.map (Prod.map id (Tree.merged canon)), tail)

theorem closing_follows {bytes rest : List UInt8} {byte : UInt8} (blanks : Blanks bytes (byte :: rest))
    (apart : isNumeral (latin byte) = false) : Follows bytes :=
  blanks_follows blanks (follows_cons apart rest)

theorem items_open {bytes rest : List UInt8} {raw : Json Double}
    (read : Reads (loose doubles) .items bytes raw rest) (byte : UInt8) (more : List UInt8)
    (opened : skipWhitespace bytes = byte :: more) : byte ≠ 0x5D := by
  have value : ∀ {start stop : List UInt8} {item : Json Double}, Blanks bytes start →
      Reads (loose doubles) .value start item stop → byte ≠ 0x5D := by
    intro start stop item before first
    obtain ⟨lead, others, rfl, plain, apart⟩ := value_opens first
    rw [skip_blanks before, skip_open plain] at opened
    exact (List.cons.inj opened).1 ▸ apart
  cases read with
  | lastItem before first _ => exact value before first
  | item before first _ _ => exact value before first

theorem expectLiteral_append (literal rest : List UInt8) :
    expectLiteral literal (literal ++ rest) = .ok ((), rest) := by
  rw [expectLiteral, if_pos (List.prefix_append _ _), List.drop_left']
  rfl

/-- The choice of `parseValue` by the first byte. -/
theorem parseValue_opens {fuel : Nat} {pre inside : List UInt8} {byte : UInt8}
    (opened : skipWhitespace pre = byte :: inside) :
    parseValue doubles canon (fuel + 1) pre =
      if byte = 0x7B then parseObject canon (parseValue doubles canon fuel) inside
      else if byte = 0x5B then parseArray (parseValue doubles canon fuel) inside
      else if byte = 0x22 then do
        let (text, rest) ← parseString (inside.length + 1) inside
        return (.string (String.ofList text), rest)
      else if byte = 0x74 then do
        let (_, rest) ← expectLiteral trueText (byte :: inside)
        return (.bool true, rest)
      else if byte = 0x66 then do
        let (_, rest) ← expectLiteral falseText (byte :: inside)
        return (.bool false, rest)
      else if byte = 0x6E then do
        let (_, rest) ← expectLiteral nullText (byte :: inside)
        return (.null, rest)
      else if byte = 0x2D ∨ (0x30 ≤ byte ∧ byte ≤ 0x39) then
        parseNumber doubles (byte :: inside)
      else .error .refused := by
  rw [parseValue, opened]

theorem scanned {form : Form} {bytes rest : List UInt8} {raw : Json Double}
    (read : Reads (loose doubles) form bytes raw rest) {fuel : Nat} (enough : bytes.length < fuel) :
    Scanned doubles canon bytes rest raw fuel form := by
  obtain ⟨fuel, rfl⟩ : ∃ less, fuel = less + 1 := ⟨fuel - 1, by omega⟩
  rw [Nat.lt_succ_iff] at enough
  induction read generalizing fuel with
  | null rest =>
    intro pre same _
    have text := expectLiteral_append nullText rest
    rw [parseValue_opens (same.trans (skip_open rfl _)), if_neg (by decide), if_neg (by decide),
      if_neg (by decide), if_neg (by decide), if_neg (by decide), if_pos rfl]
    exact (congrArg (· >>= _) text).trans (by simp [Tree.merged, ok_bind, pure, Except.pure])
  | true rest =>
    intro pre same _
    have text := expectLiteral_append trueText rest
    rw [parseValue_opens (same.trans (skip_open rfl _)), if_neg (by decide), if_neg (by decide),
      if_neg (by decide), if_pos rfl]
    exact (congrArg (· >>= _) text).trans (by simp [Tree.merged, ok_bind, pure, Except.pure])
  | false rest =>
    intro pre same _
    have text := expectLiteral_append falseText rest
    rw [parseValue_opens (same.trans (skip_open rfl _)), if_neg (by decide), if_neg (by decide),
      if_neg (by decide), if_neg (by decide), if_pos rfl]
    exact (congrArg (· >>= _) text).trans (by simp [Tree.merged, ok_bind, pure, Except.pure])
  | @number token number spelled rest =>
    intro pre same follows
    obtain ⟨byte, more, shape, starts⟩ := loose_opens spelled rest
    have bounds := starts_iff.mp starts
    have apart (other : UInt8) (none : ¬(other = 0x2D ∨ (0x30 ≤ other ∧ other ≤ 0x39))) :
        byte ≠ other := fun equal => none (equal ▸ bounds)
    have plain : isBlank byte = false := by
      simp only [isBlank, Bool.or_eq_false_iff, decide_eq_false_iff_not]
      exact ⟨⟨⟨apart _ (by decide), apart _ (by decide)⟩, apart _ (by decide)⟩, apart _ (by decide)⟩
    rw [shape, skip_open plain] at same
    rw [parseValue_opens same, if_neg (apart _ (by decide)), if_neg (apart _ (by decide)),
      if_neg (apart _ (by decide)), if_neg (apart _ (by decide)), if_neg (apart _ (by decide)),
      if_neg (apart _ (by decide)), if_pos bounds, ← shape, parseNumber_complete spelled follows]
    simp [Tree.merged]
  | @string bytes rest text quoted =>
    intro pre same _
    rw [parseValue_opens (same.trans (skip_open rfl _)), if_neg (by decide), if_neg (by decide),
      if_pos rfl, parseString_of_quoted quoted (Nat.lt_succ_self _), ok_bind]
    simp [Tree.merged, pure, Except.pure]
  | @noItems bytes rest blank =>
    intro pre same _
    have closed := (skip_blanks blank).trans (skip_open rfl rest)
    rw [parseValue_opens (same.trans (skip_open rfl _)), if_neg (by decide), if_pos rfl,
      parseArray, closed]
    simp [Tree.merged]
  | @array bytes rest items inside ih =>
    intro pre same _
    obtain ⟨fuel, rfl⟩ : ∃ less, fuel = less + 1 := ⟨fuel - 1, by
      rw [List.length_cons] at enough
      omega⟩
    rw [List.length_cons] at enough
    have found := @ih fuel (by omega) (skipWhitespace bytes) rest (bytes.length + 1) items
      (skip_blanks (blanks_skip bytes)).symm rfl (Nat.lt_succ_self _) rfl
    rw [parseValue_opens (same.trans (skip_open rfl _)), if_neg (by decide), if_pos rfl,
      parseArray]
    split
    case h_1 closed => exact absurd rfl (items_open inside _ _ closed)
    case h_2 =>
      rw [found, ok_bind]
      simp [Tree.merged, pure, Except.pure]
  | lastItem before read after ih =>
    intro pre tail loop raws same ends long shape
    cases shape
    cases ends
    obtain ⟨loop, rfl⟩ : ∃ less, loop = less + 1 := ⟨loop - 1, by omega⟩
    have size := blanks_length before
    have value := @ih fuel (by omega) pre (same.trans (skip_blanks before))
      (closing_follows after rfl)
    rw [parseItems, value, ok_bind]
    simp only [skip_blanks after, skip_open (show isBlank 0x5D = false from rfl)]
    rfl
  | @item bytes start stop next rest item items before read after _ here later =>
    intro pre tail loop raws same ends long shape
    cases shape
    obtain ⟨loop, rfl⟩ : ∃ less, loop = less + 1 := ⟨loop - 1, by omega⟩
    have size := blanks_length before
    have shorter := reads_length read
    have gap := blanks_length after
    rw [List.length_cons] at gap
    have value := @here fuel (by omega) pre (same.trans (skip_blanks before))
      (closing_follows after rfl)
    have others := @later fuel (by omega) next tail loop items rfl ends (by omega) rfl
    rw [parseItems, value, ok_bind]
    simp only [skip_blanks after, skip_open (show isBlank 0x2C = false from rfl)]
    rw [if_neg (by decide), if_pos trivial, others, ok_bind]
    rfl
  | @noMembers bytes rest blank =>
    intro pre same _
    have closed := (skip_blanks blank).trans (skip_open rfl rest)
    rw [parseValue_opens (same.trans (skip_open rfl _)), if_pos rfl, parseObject, closed]
    simp [Tree.merged, keep]
  | @object bytes rest members inside ih =>
    intro pre same _
    obtain ⟨fuel, rfl⟩ : ∃ less, fuel = less + 1 := ⟨fuel - 1, by
      rw [List.length_cons] at enough
      omega⟩
    rw [List.length_cons] at enough
    have found := @ih fuel (by omega) (skipWhitespace bytes) rest (bytes.length + 1) members
      (skip_blanks (blanks_skip bytes)).symm rfl (Nat.lt_succ_self _) rfl
    rw [parseValue_opens (same.trans (skip_open rfl _)), if_pos rfl, parseObject]
    split
    case h_1 closed =>
      obtain ⟨named, before⟩ : ∃ named, Blanks bytes (0x22 :: named) := by
        cases inside with
        | lastMember before => exact ⟨_, before⟩
        | member before => exact ⟨_, before⟩
      rw [skip_blanks before, skip_open rfl] at closed
      cases closed
    case h_2 =>
      rw [found, ok_bind, Tree.merged]
      rfl
  | @lastMember bytes named colon afterColon start stop rest key item before quoted between blank
      read after ih =>
      intro pre tail loop raws same ends long shape
      cases shape
      cases ends
      obtain ⟨loop, rfl⟩ : ∃ less, loop = less + 1 := ⟨loop - 1, by omega⟩
      have first := blanks_length before
      have text := quoted.length
      have separator := blanks_length between
      have gap := blanks_length blank
      rw [List.length_cons] at first separator
      have value := @ih fuel (by omega) afterColon (skip_blanks blank) (closing_follows after rfl)
      rw [parseMembers, same, skip_blanks before, skip_open rfl]
      simp only
      rw [parseString_of_quoted quoted (Nat.lt_succ_self _), ok_bind]
      simp only [skip_blanks between, skip_open (show isBlank 0x3A = false from rfl)]
      rw [value, ok_bind]
      simp only [skip_blanks after, skip_open (show isBlank 0x7D = false from rfl)]
      rfl
  | @member bytes named colon afterColon start stop next rest key item members before quoted between
      blank read after _ here later =>
      intro pre tail loop raws same ends long shape
      cases shape
      obtain ⟨loop, rfl⟩ : ∃ less, loop = less + 1 := ⟨loop - 1, by omega⟩
      have first := blanks_length before
      have text := quoted.length
      have separator := blanks_length between
      have gap := blanks_length blank
      have shorter := reads_length read
      have last := blanks_length after
      rw [List.length_cons] at first separator last
      have value := @here fuel (by omega) afterColon (skip_blanks blank) (closing_follows after rfl)
      have others := @later fuel (by omega) next tail loop members rfl ends (by omega) rfl
      rw [parseMembers, same, skip_blanks before, skip_open rfl]
      simp only
      rw [parseString_of_quoted quoted (Nat.lt_succ_self _), ok_bind]
      simp only [skip_blanks between, skip_open (show isBlank 0x3A = false from rfl)]
      rw [value, ok_bind]
      simp only [skip_blanks after, skip_open (show isBlank 0x2C = false from rfl)]
      rw [if_neg (by decide), if_pos trivial, others, ok_bind]
      rfl

/-! ### The scanner stops -/

theorem skip_length (bytes : List UInt8) : (skipWhitespace bytes).length ≤ bytes.length :=
  blanks_length (blanks_skip bytes)

theorem parseItems_fed {parse : List UInt8 → Except Stop (Read (Json Double))} {bound : Nat}
    (fed : ∀ bytes : List UInt8, bytes.length < bound → parse bytes ≠ .error .starved)
    (shorter : ∀ bytes value rest, parse bytes = .ok (value, rest) → rest.length < bytes.length)
    {fuel : Nat} {bytes : List UInt8} (enough : bytes.length < fuel) (small : bytes.length < bound) :
    parseItems parse fuel bytes ≠ .error .starved := by
  induction fuel generalizing bytes with
  | zero => omega
  | succ fuel ih =>
    rw [parseItems]
    apply bind_fed (fed bytes small)
    rintro ⟨item, stop⟩ first
    have size := shorter _ _ _ first
    have skipped := skip_length stop
    simp only
    split
    · simp
    · next byte next shape =>
      rw [shape, List.length_cons] at skipped
      split_ifs
      · simp [pure, Except.pure]
      · apply bind_fed (ih (by omega) (by omega))
        intro _ _
        simp [pure, Except.pure]
      · simp

theorem parseMembers_fed {parse : List UInt8 → Except Stop (Read (Json Double))} {bound : Nat}
    (fed : ∀ bytes : List UInt8, bytes.length < bound → parse bytes ≠ .error .starved)
    (shorter : ∀ bytes value rest, parse bytes = .ok (value, rest) → rest.length < bytes.length)
    {fuel : Nat} {bytes : List UInt8} (enough : bytes.length < fuel) (small : bytes.length < bound) :
    parseMembers parse fuel bytes ≠ .error .starved := by
  induction fuel generalizing bytes with
  | zero => omega
  | succ fuel ih =>
    have opening := skip_length bytes
    rw [parseMembers]
    split
    · next named shape =>
      rw [shape, List.length_cons] at opening
      apply bind_fed (parseString_fed (Nat.lt_succ_self _))
      rintro ⟨key, colon⟩ quoted
      have text := (parseString_quoted quoted).length
      have separator := skip_length colon
      simp only
      split
      · next afterColon parted =>
        rw [parted, List.length_cons] at separator
        apply bind_fed (fed _ (by omega))
        rintro ⟨item, stop⟩ first
        have size := shorter _ _ _ first
        have skipped := skip_length stop
        simp only
        split
        · simp
        · next byte next shape =>
          rw [shape, List.length_cons] at skipped
          split_ifs
          · simp [pure, Except.pure]
          · apply bind_fed (ih (by omega) (by omega))
            intro _ _
            simp [pure, Except.pure]
          · simp
      · simp
    · simp

theorem parseValue_shorter {fuel : Nat} {bytes rest : List UInt8} {value : Json Double}
    (read : parseValue doubles canon fuel bytes = .ok (value, rest)) :
    rest.length < bytes.length := by
  obtain ⟨raw, start, before, spelled, _⟩ := parseValue_sound read
  have first := blanks_length before
  have size := reads_length spelled
  omega

theorem parseValue_fed {fuel : Nat} {bytes : List UInt8} (enough : bytes.length < fuel) :
    parseValue doubles canon fuel bytes ≠ .error .starved := by
  induction fuel generalizing bytes with
  | zero => omega
  | succ fuel ih =>
    have skipped := skip_length bytes
    cases opened : skipWhitespace bytes with
    | nil =>
      rw [parseValue, opened]
      simp
    | cons byte inside =>
      rw [opened, List.length_cons] at skipped
      have inner := skip_length inside
      have literal (text : List UInt8) (tree : Json Double) : (do
          let (_, rest) ← expectLiteral text (byte :: inside)
          return (tree, rest)) ≠ (.error .starved : Except Stop (Read (Json Double))) := by
        apply bind_fed
        · unfold expectLiteral
          split_ifs <;> simp
        · intro _ _
          simp [pure, Except.pure]
      rw [parseValue_opens opened]
      split_ifs
      · unfold parseObject
        split
        · simp
        · apply bind_fed (parseMembers_fed (fun _ => ih) (fun _ _ _ => parseValue_shorter)
            (by omega) (by omega))
          intro _ _
          simp [pure, Except.pure]
      · unfold parseArray
        split
        · simp
        · apply bind_fed (parseItems_fed (fun _ => ih) (fun _ _ _ => parseValue_shorter)
            (by omega) (by omega))
          intro _ _
          simp [pure, Except.pure]
      · apply bind_fed (parseString_fed (Nat.lt_succ_self _))
        intro _ _
        simp [pure, Except.pure]
      · exact literal _ _
      · exact literal _ _
      · exact literal _ _
      · simp only [parseNumber]
        split <;> simp
      · simp

/-- `JSON.parse` comes to an end on every input. -/
theorem parse_fed (bytes : List UInt8) : parse doubles canon bytes ≠ .error .starved := by
  apply bind_fed (parseValue_fed (Nat.lt_succ_self _))
  rintro ⟨value, rest⟩ _
  simp only
  split_ifs <;> simp [pure, Except.pure]

/-- What `JSON.parse` returns is a text of the wider rules, with its objects as dictionaries. -/
theorem parse_iff {bytes : List UInt8} {value : Json Double} :
    parse doubles canon bytes = .ok value ↔
      ∃ raw, Text (loose doubles) bytes raw ∧ value = raw.merged canon := by
  constructor
  · intro read
    obtain ⟨⟨value, rest⟩, found, read⟩ := bind_ok_iff.mp read
    simp only at read
    split at read
    case isTrue ended =>
      cases read
      obtain ⟨raw, start, before, spelled, same⟩ := parseValue_sound found
      exact ⟨raw, ⟨start, rest, before, spelled, ended ▸ blanks_skip rest⟩, same⟩
    case isFalse => cases read
  · rintro ⟨raw, ⟨start, stop, before, read, after⟩, rfl⟩
    have ended : skipWhitespace stop = [] := skip_blanks after
    have size := blanks_length before
    have nothing : Follows [] := by
      intro byte head
      cases head
    have found : parseValue doubles canon (bytes.length + 1) bytes = .ok (raw.merged canon, stop) :=
      scanned read (by omega) bytes (skip_blanks before) (blanks_follows after nothing)
    rw [parse, found, ok_bind]
    simp only
    rw [if_pos ended]
    rfl

/-! ### The law -/

/-- `JSON.parse` ends, it takes the texts of RFC 8259 and no others, and it returns the tree of the
text, in whose objects only equal keys are one. -/
def Faithful (doubles : Doubles Double) (canon : String → String) (bytes : List UInt8) : Prop :=
  parse doubles canon bytes ≠ .error .starved ∧
    ((∃ value, parse doubles canon bytes = .ok value) ↔ ∃ raw, Text (rfc doubles) bytes raw) ∧
    ∀ raw, Text (rfc doubles) bytes raw → parse doubles canon bytes = .ok (raw.merged id)

theorem text_loose {bytes : List UInt8} {raw : Json Double} (text : Text (rfc doubles) bytes raw) :
    Text (loose doubles) bytes raw :=
  text.mono (fun _ _ => trivial) fun _ _ => RfcNumber.loose

/-- The reader is faithful to the bytes that are a text of RFC 8259 if they are one by the wider
rules, with the keys of each object apart. -/
theorem faithful_iff (bytes : List UInt8) :
    Faithful doubles canon bytes ↔
      ((∃ raw, Text (loose doubles) bytes raw) → ∃ raw, Text (rfc doubles) bytes raw) ∧
        ∀ raw, Text (rfc doubles) bytes raw → (raw.merged id).Apart canon := by
  constructor
  · rintro ⟨_, taken, returned⟩
    refine ⟨fun ⟨raw, text⟩ => taken.mp ⟨_, parse_iff.mpr ⟨raw, text, rfl⟩⟩, ?_⟩
    intro raw text
    apply (Tree.merged_eq_iff canon raw).mp
    have read := (returned raw text).symm.trans (parse_iff.mpr ⟨raw, text_loose text, rfl⟩)
    exact (Except.ok.inj read).symm
  · rintro ⟨conforms, apart⟩
    refine ⟨parse_fed bytes, ⟨?_, ?_⟩, ?_⟩
    · rintro ⟨value, read⟩
      obtain ⟨raw, text, _⟩ := parse_iff.mp read
      exact conforms ⟨raw, text⟩
    · rintro ⟨raw, text⟩
      exact ⟨_, parse_iff.mpr ⟨raw, text_loose text, rfl⟩⟩
    · intro raw text
      rw [← (Tree.merged_eq_iff canon raw).mpr (apart raw text)]
      exact parse_iff.mpr ⟨raw, text_loose text, rfl⟩

end Reading

/-- Doubles by their texts. -/
def spelledDoubles : Doubles (List Char) where
  read := some
  reads := fun _ _ => rfl

/-- A string of one control character that is not escaped. -/
theorem raw_control_not_faithful : ¬Faithful spelledDoubles id [0x22, 0x01, 0x22] := by
  intro faithful
  have taken : Text (loose spelledDoubles) [0x22, 0x01, 0x22]
      (.string (String.ofList ['\x01'])) :=
    ⟨_, [], ⟨[], rfl, by simp⟩, 
      .string (@Quoted.plain _ '\x01' [] [0x22] [] trivial (by decide) (.close [])),
      [], rfl, by simp⟩
  obtain ⟨raw, start, stop, ⟨front, whole, blank⟩, read, _⟩ :=
    ((faithful_iff _).mp faithful).1 ⟨_, taken⟩
  have none : front = [] := by
    cases front with
    | nil => rfl
    | cons byte front =>
      have first := blank byte List.mem_cons_self
      rw [← (List.cons.inj whole).1] at first
      cases first
  subst none
  rw [List.nil_append] at whole
  cases read with
  | null => cases whole
  | true => cases whole
  | false => cases whole
  | number spelled =>
    obtain ⟨byte, more, shape, starts⟩ := loose_opens spelled.loose stop
    rw [← whole] at shape
    rw [← (List.cons.inj shape).1] at starts
    revert starts
    decide
  | string quoted =>
    cases whole
    generalize shape : ([0x01, 0x22] : List UInt8) = bytes at quoted
    cases quoted with
    | close => cases shape
    | @plain char _ after _ allowed =>
      have inside : 0x01 ∈ String.utf8EncodeChar char := by
        cases lead : String.utf8EncodeChar char with
        | nil => exact absurd lead String.utf8EncodeChar_ne_nil
        | cons byte tail =>
          rw [lead, List.cons_append] at shape
          rw [← (List.cons.inj shape).1]
          exact List.mem_cons_self
      have small := (ascii_byte inside (by decide)).2
      change 0x20 ≤ char.toNat at allowed
      rw [small] at allowed
      exact absurd allowed (by decide)
    | escape => cases shape
  | noItems => cases whole
  | array => cases whole
  | noMembers => cases whole
  | object => cases whole

end Fantastic.Swift.JsonBytes
