import Fantastic.Foundation.JsonSyntax
import Fantastic.Swift.RecordCodable

/-!
# The JSON reader over bytes

`JSONScanner.swift` and `JSON.parse`, with the bytes that are left for the offset. A loop that
still runs when its fuel is spent is told from a text that is refused; the texts of the errors
are left out. `canon` is the canonical form that `String` compares by.
-/

namespace Fantastic.Swift.JsonBytes

open JsonSyntax
open JsonGrammar (isNumeral startsNumber integer? natural? Ends)

/-- The numbers of `JSON`. -/
inductive Numeral (Double : Type) where
  | integer (value : Int)
  | double (value : Double)

abbrev Json (Double : Type) :=
  JsonSyntax.Tree (Numeral Double)

/-- `Double(_:)` on a text. It takes every number of JSON, and may take more. -/
structure Doubles (Double : Type) where
  read : List Char → Option Double
  reads : ∀ token, NumberText token → (read token).isSome

inductive Stop where
  | starved
  | refused
  deriving DecidableEq

/-- What was read, and the bytes that are left. -/
abbrev Read (α : Type) :=
  α × List UInt8

/-! ### The scanner -/

def skipWhitespace (bytes : List UInt8) : List UInt8 :=
  bytes.dropWhile isBlank

def expectLiteral (literal bytes : List UInt8) : Except Stop (Read Unit) :=
  if literal <+: bytes then .ok ((), bytes.drop literal.length) else .error .refused

/-- `String(bytes:encoding:)` with `.utf8`. -/
def decode (bytes : List UInt8) : Option (List Char) :=
  (String.fromUTF8? bytes.toByteArray).map String.toList

/-- `\u` and what it needs of a surrogate pair. -/
def parseUnicode (bytes : List UInt8) : Except Stop (Read Char) :=
  match hex4 bytes with
  | none => .error .refused
  | some (scalar, rest) =>
    if 0xD800 ≤ scalar ∧ scalar ≤ 0xDBFF then
      match rest with
      | 0x5C :: 0x75 :: rest =>
        match hex4 rest with
        | none => .error .refused
        | some (low, rest) =>
          if 0xDC00 ≤ low ∧ low ≤ 0xDFFF then
            .ok (Char.ofNat (0x10000 + (scalar - 0xD800) * 0x400 + (low - 0xDC00)), rest)
          else .error .refused
      | _ => .error .refused
    else if scalar < 0xD800 ∨ 0xDFFF < scalar then .ok (Char.ofNat scalar, rest)
    else .error .refused

/-- The switch of `parseString` on the byte after a backslash. -/
def parseEscape : List UInt8 → Except Stop (Read Char)
  | [] => .error .refused
  | esc :: rest =>
    if esc = 0x75 then parseUnicode rest
    else
      match shortEscapes.lookup esc with
      | some char => .ok (char, rest)
      | none => .error .refused

def significant (byte : UInt8) : Bool :=
  byte = 0x22 || byte = 0x5C

/-- `parseString`, past its opening quote. -/
def parseString : Nat → List UInt8 → Except Stop (Read (List Char))
  | 0, _ => .error .starved
  | _ + 1, [] => .error .refused
  | fuel + 1, byte :: rest =>
    if byte = 0x22 then .ok ([], rest)
    else if byte = 0x5C then do
      let (char, rest) ← parseEscape rest
      let (more, rest) ← parseString fuel rest
      return (char :: more, rest)
    else
      match decode ((byte :: rest).takeWhile fun byte => !significant byte) with
      | none => .error .refused
      | some text => do
          let (more, rest) ←
            parseString fuel ((byte :: rest).dropWhile fun byte => !significant byte)
          return (text ++ more, rest)

def isExponent (char : Char) : Bool :=
  char = 'e' || char = 'E'

/-- The loop of `parseNumber`; a sign is taken right after an exponent mark. -/
def numberRun : Bool → List Char → List Char × List Char
  | _, [] => ([], [])
  | marked, char :: rest =>
    if char.isDigit || char = '.' then
      (char :: (numberRun false rest).1, (numberRun false rest).2)
    else if isExponent char then (char :: (numberRun true rest).1, (numberRun true rest).2)
    else if marked && (char = '+' || char = '-') then
      (char :: (numberRun false rest).1, (numberRun false rest).2)
    else ([], char :: rest)

/-- The bytes `parseNumber` takes: a minus, then the loop. -/
def numberToken : List Char → List Char × List Char
  | [] => ([], [])
  | char :: rest =>
    if char = '-' then (char :: (numberRun false rest).1, (numberRun false rest).2)
    else numberRun false (char :: rest)

def isFraction (token : List Char) : Bool :=
  token.any fun char => char = '.' || isExponent char

/-- `Int64(_:)` on a token of digits with or without a minus. -/
def int64? (token : List Char) : Option Int :=
  let negative := token.head? = some '-'
  let digits := if negative then token.tail else token
  let number : Int := Nat.ofDigitChars 10 digits 0
  let number := if negative then -number else number
  if digits ≠ [] ∧ digits.all Char.isDigit ∧ InInt64 number then some number else none

/-- The character of a byte of ASCII. -/
def latin (byte : UInt8) : Char :=
  Char.ofNat byte.toNat

section Scanning

variable {Double : Type} (doubles : Doubles Double) (canon : String → String)

/-- A text of digits, signs, points and exponent marks as a number. -/
def convert (token : List Char) : Option (Numeral Double) :=
  if isFraction token then (doubles.read token).map .double
  else
    match int64? token with
    | some number => some (.integer number)
    | none => (doubles.read token).map .double

def parseNumber (bytes : List UInt8) : Except Stop (Read (Json Double)) :=
  let token := (numberToken (bytes.map latin)).1
  match convert doubles token with
  | some number => .ok (.number number, bytes.drop token.length)
  | none => .error .refused

variable {Item : Type}

/-- The loop of `parseArray`. -/
def parseItems (parseValue : List UInt8 → Except Stop (Read Item)) :
    Nat → List UInt8 → Except Stop (Read (List Item))
  | 0, _ => .error .starved
  | fuel + 1, bytes => do
      let (item, rest) ← parseValue bytes
      match skipWhitespace rest with
      | [] => .error .refused
      | byte :: rest =>
        if byte = 0x5D then return ([item], rest)
        else if byte = 0x2C then do
          let (items, rest) ← parseItems parseValue fuel rest
          return (item :: items, rest)
        else .error .refused

/-- The loop of `parseObject`, with its members in the order in which they go into the
dictionary. -/
def parseMembers (parseValue : List UInt8 → Except Stop (Read Item)) :
    Nat → List UInt8 → Except Stop (Read (List (String × Item)))
  | 0, _ => .error .starved
  | fuel + 1, bytes =>
    match skipWhitespace bytes with
    | 0x22 :: rest => do
        let (key, rest) ← parseString (rest.length + 1) rest
        match skipWhitespace rest with
        | 0x3A :: rest => do
            let (item, rest) ← parseValue rest
            match skipWhitespace rest with
            | [] => .error .refused
            | byte :: rest =>
              if byte = 0x7D then return ([(String.ofList key, item)], rest)
              else if byte = 0x2C then do
                let (members, rest) ← parseMembers parseValue fuel rest
                return ((String.ofList key, item) :: members, rest)
              else .error .refused
        | _ => .error .refused
    | _ => .error .refused

def parseArray (parseValue : List UInt8 → Except Stop (Read (Json Double))) (bytes : List UInt8) :
    Except Stop (Read (Json Double)) :=
  match skipWhitespace bytes with
  | 0x5D :: rest => .ok (.array [], rest)
  | rest => do
      let (items, rest) ← parseItems parseValue (bytes.length + 1) rest
      return (.array items, rest)

def parseObject (parseValue : List UInt8 → Except Stop (Read (Json Double))) (bytes : List UInt8) :
    Except Stop (Read (Json Double)) :=
  match skipWhitespace bytes with
  | 0x7D :: rest => .ok (.object [], rest)
  | rest => do
      let (members, rest) ← parseMembers parseValue (bytes.length + 1) rest
      return (.object (keep canon members), rest)

/-- `parseValue`; the fuel is for the nesting. -/
def parseValue : Nat → List UInt8 → Except Stop (Read (Json Double))
  | 0, _ => .error .starved
  | fuel + 1, bytes =>
    match skipWhitespace bytes with
    | [] => .error .refused
    | byte :: rest =>
      if byte = 0x7B then parseObject canon (parseValue fuel) rest
      else if byte = 0x5B then parseArray (parseValue fuel) rest
      else if byte = 0x22 then do
        let (text, rest) ← parseString (rest.length + 1) rest
        return (.string (String.ofList text), rest)
      else if byte = 0x74 then do
        let (_, rest) ← expectLiteral trueText (byte :: rest)
        return (.bool true, rest)
      else if byte = 0x66 then do
        let (_, rest) ← expectLiteral falseText (byte :: rest)
        return (.bool false, rest)
      else if byte = 0x6E then do
        let (_, rest) ← expectLiteral nullText (byte :: rest)
        return (.null, rest)
      else if byte = 0x2D ∨ (0x30 ≤ byte ∧ byte ≤ 0x39) then
        parseNumber doubles (byte :: rest)
      else .error .refused

/-- `JSON.parse`. -/
def parse (bytes : List UInt8) : Except Stop (Json Double) := do
  let (value, rest) ← parseValue doubles canon (bytes.length + 1) bytes
  if skipWhitespace rest = [] then return value else .error .refused

end Scanning

/-! ### Strings -/

theorem decode_iff {bytes : List UInt8} {chars : List Char} :
    decode bytes = some chars ↔ bytes = encode chars := by
  have spelled : encode chars = utf8 (String.ofList chars) := by
    rw [utf8, String.toList_ofList]
    rfl
  unfold decode
  rw [Option.map_eq_some_iff]
  constructor
  · rintro ⟨text, read, rfl⟩
    unfold String.fromUTF8? at read
    split at read
    case isTrue valid =>
      cases read
      rw [← List.toByteArray_inj, spelled, String.ofList_toList, utf8_toByteArray]
      rfl
    case isFalse => cases read
  · rintro rfl
    rw [spelled, fromUTF8_utf8]
    exact ⟨_, rfl, String.toList_ofList⟩

theorem parseEscape_iff {bytes rest : List UInt8} {char : Char} :
    parseEscape bytes = .ok (char, rest) ↔ Escape bytes char rest := by
  constructor
  · intro read
    cases bytes with
    | nil => cases read
    | cons esc bytes =>
      rw [parseEscape] at read
      split at read
      case isTrue unicode =>
        subst unicode
        unfold parseUnicode at read
        split at read
        case h_1 => cases read
        case h_2 scalar middle first =>
          split_ifs at read with leads apart
          · split at read
            case h_1 more =>
              split at read
              case h_1 => cases read
              case h_2 low after second =>
                split at read
                case isTrue trails =>
                  obtain ⟨rfl, rfl⟩ := Prod.mk.inj (Except.ok.inj read)
                  exact .pair first leads second trails
                case isFalse => cases read
            case h_2 => cases read
          · cases read
            exact .unit first apart
      case isFalse =>
        split at read
        case h_1 other listed =>
          cases read
          exact .short listed _
        case h_2 => cases read
  · intro escape
    cases escape with
    | @short mark _ listed =>
      have other : mark ≠ 0x75 := by
        rintro rfl
        cases listed
      rw [parseEscape, if_neg other, listed]
    | unit first scalar =>
      rw [parseEscape, if_pos rfl, parseUnicode, first]
      simp only
      rw [if_neg (by omega), if_pos scalar]
    | pair first leads second trails =>
      rw [parseEscape, if_pos rfl, parseUnicode, first]
      simp only
      rw [if_pos leads, second]
      simp only
      rw [if_pos trails]

/-- A character but a quote and a backslash has no byte that ends a slice. -/
theorem insignificant {chars : List Char} (apart : ∀ char ∈ chars, char ≠ '\x22' ∧ char ≠ '\\')
    {byte : UInt8} (member : byte ∈ encode chars) : significant byte = false := by
  obtain ⟨char, listed, inside⟩ := List.mem_flatMap.mp member
  have other (number : UInt8) (small : number.toNat < 0x80) (same : byte = number) :
      char.toNat = number.toNat := by
    subst same
    exact (ascii_byte inside small).2
  have unlike (wanted : Char) (differs : char ≠ wanted) : char.toNat ≠ wanted.toNat :=
    fun same => differs (Char.toNat_inj.mp same)
  obtain ⟨quote, slash⟩ := apart char listed
  simp only [significant, Bool.or_eq_false_iff, decide_eq_false_iff_not]
  exact ⟨fun same => unlike _ quote (other 0x22 (by decide) same),
    fun same => unlike _ slash (other 0x5C (by decide) same)⟩

theorem ok_bind {Left Right : Type} (value : Left) (next : Left → Except Stop Right) :
    (Except.ok value >>= next) = next value := rfl

theorem bind_ok_iff {Left Right : Type} {first : Except Stop Left} {next : Left → Except Stop Right}
    {result : Right} :
    first >>= next = .ok result ↔ ∃ value, first = .ok value ∧ next value = .ok result := by
  cases first with
  | error stop => simp [bind, Except.bind]
  | ok value => simp [bind, Except.bind]

-- The equations of `parseString` are made here, once for the three proofs that rewrite with them.
attribute [local simp] parseString in
theorem parseString_quoted {fuel : Nat} {bytes rest : List UInt8} {text : List Char}
    (read : parseString fuel bytes = .ok (text, rest)) :
    Quoted (fun _ => True) bytes text rest := by
  induction fuel generalizing bytes text with
  | zero => cases read
  | succ fuel ih =>
    cases bytes with
    | nil => cases read
    | cons byte bytes =>
      rw [parseString] at read
      split at read
      case isTrue quote =>
        cases read
        rw [quote]
        exact .close _
      case isFalse =>
        split at read
        case isTrue slash =>
          obtain ⟨⟨char, middle⟩, first, read⟩ := bind_ok_iff.mp read
          obtain ⟨⟨more, last⟩, later, read⟩ := bind_ok_iff.mp read
          cases read
          rw [slash]
          exact .escape (parseEscape_iff.mp first) (ih later)
        case isFalse =>
          split at read
          case h_1 => cases read
          case h_2 slice decoded =>
            obtain ⟨⟨more, last⟩, later, read⟩ := bind_ok_iff.mp read
            cases read
            have spelled := decode_iff.mp decoded
            have whole := @List.takeWhile_append_dropWhile _
              (fun byte => !significant byte) (byte :: bytes)
            rw [← whole, spelled]
            refine Quoted.append ?_ (ih later)
            intro char member
            refine ⟨trivial, ?_⟩
            have clean : ∀ other ∈ encode slice, significant other = false := by
              intro other listed
              rw [← spelled] at listed
              simpa using List.mem_takeWhile_imp listed
            have bytesOf : ∀ other ∈ String.utf8EncodeChar char, significant other = false :=
              fun other listed => clean other (List.mem_flatMap.mpr ⟨char, member, listed⟩)
            constructor
            · rintro rfl
              exact absurd (bytesOf 0x22 (by decide)) (by decide)
            · rintro rfl
              exact absurd (bytesOf 0x5C (by decide)) (by decide)

/-- A slice up to a byte that ends it. -/
theorem slice_append {chars : List Char} (apart : ∀ char ∈ chars, char ≠ '\x22' ∧ char ≠ '\\')
    {byte : UInt8} (ends : byte = 0x22 ∨ byte = 0x5C) (more : List UInt8) :
    (encode chars ++ byte :: more).takeWhile (fun byte => !significant byte) = encode chars ∧
      (encode chars ++ byte :: more).dropWhile (fun byte => !significant byte) = byte :: more := by
  have plain : ∀ byte ∈ encode chars, (!significant byte) = true := by
    intro byte member
    rw [insignificant apart member]
    rfl
  rw [List.takeWhile_append_of_pos plain, List.dropWhile_append_of_pos plain]
  rcases ends with rfl | rfl <;> simp [significant]

theorem parseString_of_quoted {fuel : Nat} {bytes rest : List UInt8} {text : List Char}
    {plain : Char → Prop} (quoted : Quoted plain bytes text rest) (enough : bytes.length < fuel) :
    parseString fuel bytes = .ok (text, rest) := by
  induction fuel generalizing bytes text with
  | zero => omega
  | succ fuel ih =>
    obtain ⟨chars, text', byte, more, rfl, rfl, apart, ends, ending⟩ := quoted.run
    obtain ⟨taken, left⟩ := slice_append apart ends more
    rw [List.length_append, List.length_cons] at enough
    cases shape : encode chars with
    | nil =>
      have none : chars = [] := by
        cases chars with
        | nil => rfl
        | cons char chars =>
          rw [encode_cons, List.append_eq_nil_iff] at shape
          exact absurd shape.1 String.utf8EncodeChar_ne_nil
      subst none
      rw [List.nil_append, List.nil_append, parseString]
      generalize start_eq : byte :: more = start at ending
      cases ending with
      | close =>
        cases start_eq
        rw [if_pos rfl]
      | @plain char _ after _ _ fine later =>
        have significance : significant byte = false := by
          apply @insignificant [char] (by simpa using fine)
          rw [encode, List.flatMap_singleton]
          cases first : String.utf8EncodeChar char with
          | nil => exact absurd first String.utf8EncodeChar_ne_nil
          | cons lead tail =>
            rw [first, List.cons_append, List.cons.injEq] at start_eq
            rw [start_eq.1]
            exact List.mem_cons_self
        rcases ends with rfl | rfl <;> cases significance
      | @escape char _ after middle _ escaped later =>
        cases start_eq
        have size := escaped.length
        rw [if_neg (by decide), if_pos rfl, parseEscape_iff.mpr escaped, ok_bind]
        simp only
        rw [ih later (by omega), ok_bind]
        rfl
    | cons lead tail =>
      have plain := @insignificant _ apart lead (by rw [shape]; exact List.mem_cons_self)
      simp only [significant, Bool.or_eq_false_iff, decide_eq_false_iff_not] at plain
      have size := congrArg List.length shape
      rw [List.length_cons] at size
      have decoded : decode (encode chars) = some chars := decode_iff.mpr rfl
      rw [shape] at taken left decoded
      rw [List.cons_append, parseString, if_neg plain.1, if_neg plain.2, ← List.cons_append,
        taken, left, decoded]
      simp only
      rw [ih ending (by rw [List.length_cons]; omega), ok_bind]
      rfl

theorem parseEscape_fed (bytes : List UInt8) : parseEscape bytes ≠ .error .starved := by
  unfold parseEscape parseUnicode
  split
  · simp
  · split_ifs
    · split
      · simp
      · split_ifs
        · split
          · split
            · simp
            · split_ifs <;> simp
          · simp
        · simp
        · simp
    · split <;> simp

/-- A step that starves does so in one of its parts. -/
theorem bind_fed {Left Right : Type} {first : Except Stop Left} {next : Left → Except Stop Right}
    (here : first ≠ .error .starved) (later : ∀ value, first = .ok value →
      next value ≠ .error .starved) : first >>= next ≠ .error .starved := by
  cases first with
  | error stop =>
    intro same
    cases same
    exact here rfl
  | ok value => exact later value rfl

theorem parseString_fed {fuel : Nat} {bytes : List UInt8} (enough : bytes.length < fuel) :
    parseString fuel bytes ≠ .error .starved := by
  induction fuel generalizing bytes with
  | zero => omega
  | succ fuel ih =>
    cases bytes with
    | nil => simp [parseString]
    | cons byte bytes =>
      rw [List.length_cons] at enough
      rw [parseString]
      split_ifs with quote slash
      · simp
      · apply bind_fed (parseEscape_fed bytes)
        rintro ⟨char, middle⟩ first
        have size := (parseEscape_iff.mp first).length
        apply bind_fed (ih (by omega))
        intro _ _
        simp [pure, Except.pure]
      · split
        · simp
        · apply bind_fed
          · apply ih
            have plain : (!significant byte) = true := by simp [significant, quote, slash]
            have shorter := List.length_dropWhile_le (fun byte => !significant byte) bytes
            rw [@List.dropWhile_cons_of_pos _ (fun byte => !significant byte) _ _ plain]
            omega
          · intro _ _
            simp [pure, Except.pure]

/-! ### Numbers -/

/-- The number loop does not look past the end of a number. -/
theorem numberRun_append {marked : Bool} {token rest : List Char}
    (whole : numberRun marked token = (token, [])) (ends : Ends rest) :
    numberRun marked (token ++ rest) = (token, rest) := by
  induction token generalizing marked with
  | nil =>
    cases rest with
    | nil => rfl
    | cons char rest =>
      have apart := ends char rfl
      simp only [isNumeral, Bool.or_eq_false_iff, decide_eq_false_iff_not] at apart
      obtain ⟨⟨⟨⟨⟨digit, minus⟩, plus⟩, point⟩, low⟩, high⟩ := apart
      simp [numberRun, isExponent, digit, minus, plus, point, low, high]
  | cons char token ih =>
    rw [List.cons_append]
    unfold numberRun at whole ⊢
    have next : ∀ {mark : Bool}, (char :: (numberRun mark token).1, (numberRun mark token).2) =
        (char :: token, []) →
        (char :: (numberRun mark (token ++ rest)).1, (numberRun mark (token ++ rest)).2) =
          (char :: token, rest) := by
      intro mark same
      obtain ⟨first, last⟩ := Prod.mk.inj same
      have here := @ih mark (Prod.ext (List.cons.inj first).2 last)
      rw [here]
    split at whole
    case isTrue plain =>
      rw [if_pos plain]
      exact next whole
    case isFalse plain =>
      rw [if_neg plain]
      split at whole
      case isTrue mark =>
        rw [if_pos mark]
        exact next whole
      case isFalse mark =>
        rw [if_neg mark]
        split at whole
        case isTrue sign =>
          rw [if_pos sign]
          exact next whole
        case isFalse => cases whole

theorem numberToken_append {token rest : List Char} (some' : token ≠ [])
    (whole : numberToken token = (token, [])) (ends : Ends rest) :
    numberToken (token ++ rest) = (token, rest) := by
  cases token with
  | nil => exact absurd rfl some'
  | cons char token =>
    rw [List.cons_append]
    rw [numberToken] at whole ⊢
    split
    case isTrue minus =>
      rw [if_pos minus] at whole
      obtain ⟨first, last⟩ := Prod.mk.inj whole
      rw [numberRun_append (Prod.ext (List.cons.inj first).2 last) ends]
    case isFalse plain =>
      rw [if_neg plain] at whole
      exact numberRun_append whole ends

theorem numberRun_digits {digits : List Char} (all : digits.all Char.isDigit = true) :
    numberRun false digits = (digits, []) := by
  induction digits with
  | nil => rfl
  | cons char digits ih =>
    rw [List.all_cons, Bool.and_eq_true] at all
    unfold numberRun
    rw [if_pos (by simp [all.1]), ih all.2]

theorem digits_no_fraction {digits : List Char} (all : digits.all Char.isDigit = true) :
    isFraction digits = false := by
  rw [isFraction, List.any_eq_false]
  intro char member point
  have digit := List.all_eq_true.mp all char member
  simp only [isExponent, Bool.or_eq_true, decide_eq_true_eq] at point
  rcases point with rfl | rfl | rfl <;> cases digit

/-- The tokens of the grammar's integers. -/
theorem integer?_cases {token : List Char} {number : Int} (read : integer? token = some number) :
    ∃ digits natural, digits ≠ [] ∧ digits.all Char.isDigit = true ∧
      natural = Nat.ofDigitChars 10 digits 0 ∧
      ((token = '-' :: digits ∧ number = -(natural : Int)) ∨
        (token = digits ∧ token.head? ≠ some '-' ∧ number = natural)) := by
  have naturals : ∀ {digits : List Char} {natural : Nat}, natural? digits = some natural →
      digits ≠ [] ∧ digits.all Char.isDigit = true ∧ natural = Nat.ofDigitChars 10 digits 0 := by
    intro digits natural found
    unfold natural? at found
    split at found
    case isTrue fine =>
      cases found
      exact ⟨fine.2.1, fine.1, rfl⟩
    case isFalse => cases found
  unfold integer? at read
  split at read
  case h_1 digits =>
    obtain ⟨_, whole, same⟩ := Option.map_eq_some_iff.mp read
    obtain ⟨natural, found, cast⟩ := Option.bind_eq_some_iff.mp whole
    cases cast
    obtain ⟨some', all, value⟩ := naturals found
    exact ⟨digits, natural, some', all, value, .inl ⟨rfl, same.symm⟩⟩
  case h_2 plain =>
    obtain ⟨natural, found, same⟩ := Option.map_eq_some_iff.mp read
    obtain ⟨some', all, value⟩ := naturals found
    refine ⟨token, natural, some', all, value, .inr ⟨rfl, ?_, same.symm⟩⟩
    intro minus
    cases token with
    | nil => cases minus
    | cons char digits =>
      cases minus
      exact plain digits rfl

/-- The tokens of integers to the number loop and to `Int64(_:)`. -/
theorem integer_token {token : List Char} {number : Int} (read : integer? token = some number) :
    token.head?.any startsNumber = true ∧ numberToken token = (token, []) ∧
      isFraction token = false ∧ int64? token = if InInt64 number then some number else none := by
  obtain ⟨digits, natural, some', all, value, shape⟩ := integer?_cases read
  have first : digits.head?.any startsNumber = true := by
    cases digits with
    | nil => exact absurd rfl some'
    | cons char digits =>
      rw [List.all_cons, Bool.and_eq_true] at all
      simp [startsNumber, all.1]
  cases shape with
  | inl negative =>
    obtain ⟨rfl, rfl⟩ := negative
    refine ⟨rfl, ?_, ?_, ?_⟩
    · rw [numberToken, if_pos rfl, numberRun_digits all]
    · have plain := digits_no_fraction all
      unfold isFraction at plain ⊢
      rw [List.any_cons, plain]
      rfl
    · simp [int64?, some', all, ← value]
  | inr positive =>
    obtain ⟨rfl, plain, rfl⟩ := positive
    refine ⟨first, ?_, digits_no_fraction all, ?_⟩
    · cases token with
      | nil => rfl
      | cons char digits =>
        rw [numberToken, if_neg (fun minus => plain (by rw [minus, List.head?_cons])),
          numberRun_digits all]
    · simp [int64?, plain, some', all, ← value]

theorem latin_toNat (byte : UInt8) : (latin byte).toNat = byte.toNat := by
  have small := byte.toNat_lt
  have valid : byte.toNat.isValidChar := .inl (by omega)
  rw [latin, Char.ofNat, dif_pos valid]
  rfl

theorem numeral_small {char : Char} (numeral : isNumeral char = true) : char.toNat < 0x80 := by
  simp only [isNumeral, Bool.or_eq_true, decide_eq_true_eq] at numeral
  rcases numeral with ((((digit | rfl) | rfl) | rfl) | rfl) | rfl
  · have bounds := (Char.isDigit_iff_toNat).mp digit
    change 48 ≤ char.toNat ∧ char.toNat ≤ 57 at bounds
    omega
  all_goals decide

theorem encode_latin {bytes : List UInt8}
    (numerals : ∀ char ∈ bytes.map latin, isNumeral char = true) :
    encode (bytes.map latin) = bytes := by
  induction bytes with
  | nil => rfl
  | cons byte bytes ih =>
    rw [List.map_cons] at numerals ⊢
    have small := numeral_small (numerals _ List.mem_cons_self)
    rw [encode_cons, encode_ascii small, latin_toNat, UInt8.ofNat_toNat,
      ih fun char member => numerals char (List.mem_cons_of_mem _ member)]
    rfl

theorem latin_encode {token : List Char} (numerals : ∀ char ∈ token, isNumeral char = true) :
    (encode token).map latin = token := by
  induction token with
  | nil => rfl
  | cons char token ih =>
    have small := numeral_small (numerals _ List.mem_cons_self)
    rw [encode_cons, encode_ascii small, List.map_append,
      ih fun other member => numerals other (List.mem_cons_of_mem _ member)]
    have here : latin (UInt8.ofNat char.toNat) = char := by
      rw [← Char.toNat_inj, latin_toNat, UInt8.toNat_ofNat', Nat.mod_eq_of_lt (by omega)]
    rw [List.map_singleton, here]
    rfl

/-- What the number loop takes, and that it takes it again. -/
theorem numberRun_spec (marked : Bool) (chars : List Char) :
    (numberRun marked chars).1 ++ (numberRun marked chars).2 = chars ∧
      (∀ char ∈ (numberRun marked chars).1, isNumeral char = true) ∧
      numberRun marked (numberRun marked chars).1 = ((numberRun marked chars).1, []) := by
  induction chars generalizing marked with
  | nil => exact ⟨rfl, by simp [numberRun], rfl⟩
  | cons char chars ih =>
    rw [numberRun]
    split_ifs with digit mark sign
    · obtain ⟨whole, numerals, again⟩ := ih false
      refine ⟨congrArg _ whole, List.forall_mem_cons.mpr ⟨?_, numerals⟩, ?_⟩
      · simp only [Bool.or_eq_true, decide_eq_true_eq] at digit
        rcases digit with digit | rfl
        · simp [isNumeral, digit]
        · rfl
      · change numberRun marked (char :: (numberRun false chars).1) = _
        rw [numberRun, if_pos digit, again]
    · obtain ⟨whole, numerals, again⟩ := ih true
      refine ⟨congrArg _ whole, List.forall_mem_cons.mpr ⟨?_, numerals⟩, ?_⟩
      · simp only [isExponent, Bool.or_eq_true, decide_eq_true_eq] at mark
        rcases mark with rfl | rfl <;> rfl
      · change numberRun marked (char :: (numberRun true chars).1) = _
        rw [numberRun, if_neg digit, if_pos mark, again]
    · obtain ⟨whole, numerals, again⟩ := ih false
      refine ⟨congrArg _ whole, List.forall_mem_cons.mpr ⟨?_, numerals⟩, ?_⟩
      · simp only [Bool.and_eq_true, Bool.or_eq_true, decide_eq_true_eq] at sign
        rcases sign.2 with rfl | rfl <;> rfl
      · change numberRun marked (char :: (numberRun false chars).1) = _
        rw [numberRun, if_neg digit, if_neg mark, if_pos sign, again]
    · exact ⟨rfl, by simp, rfl⟩

theorem numberToken_spec (chars : List Char) :
    (numberToken chars).1 ++ (numberToken chars).2 = chars ∧
      (∀ char ∈ (numberToken chars).1, isNumeral char = true) ∧
      numberToken (numberToken chars).1 = ((numberToken chars).1, []) := by
  cases chars with
  | nil => exact ⟨rfl, by simp [numberToken], rfl⟩
  | cons char chars =>
    rw [numberToken]
    split
    case isTrue minus =>
      obtain ⟨whole, numerals, again⟩ := numberRun_spec false chars
      refine ⟨congrArg _ whole, List.forall_mem_cons.mpr ⟨by rw [minus]; rfl, numerals⟩, ?_⟩
      simp only [numberToken, if_pos minus, again]
    case isFalse plain =>
      obtain ⟨whole, numerals, again⟩ := numberRun_spec false (char :: chars)
      refine ⟨whole, numerals, ?_⟩
      cases run : (numberRun false (char :: chars)).1 with
      | nil => rfl
      | cons first token =>
        rw [run] at whole again
        obtain ⟨rfl, _⟩ := List.cons.inj whole
        rw [numberToken, if_neg plain, again]

theorem numberToken_starts {char : Char} (starts : startsNumber char = true) (more : List Char) :
    (numberToken (char :: more)).1 ≠ [] := by
  rw [numberToken]
  split
  case isTrue => exact List.cons_ne_nil _ _
  case isFalse plain =>
    rw [startsNumber, Bool.or_eq_true, decide_eq_true_eq] at starts
    rw [numberRun, if_pos (by simp [starts.resolve_right plain])]
    exact List.cons_ne_nil _ _

theorem starts_iff {byte : UInt8} :
    startsNumber (latin byte) = true ↔ byte = 0x2D ∨ (0x30 ≤ byte ∧ byte ≤ 0x39) := by
  have minus : latin byte = '-' ↔ byte = 0x2D := by
    rw [← Char.toNat_inj, latin_toNat, ← UInt8.toNat_inj]
    rfl
  rw [startsNumber, Bool.or_eq_true, decide_eq_true_eq, minus, Char.isDigit_iff_toNat,
    latin_toNat, or_comm, UInt8.le_iff_toNat_le, UInt8.le_iff_toNat_le]
  rfl

/-- The numbers of RFC 8259, the integers of 64 bits exact. -/
inductive RfcNumber {Double : Type} (doubles : Doubles Double) :
    List Char → Numeral Double → Prop where
  | integer {token : List Char} {number : Int} (spelled : integer? token = some number)
      (fits : InInt64 number) : RfcNumber doubles token (.integer number)
  | double {token : List Char} {number : Double} (spelled : NumberText token)
      (large : ∀ integer, integer? token = some integer → ¬InInt64 integer)
      (read : doubles.read token = some number) : RfcNumber doubles token (.double number)

/-- A run the number loop takes whole and `Int64(_:)` or `Double(_:)` makes a number of. -/
def LooseNumber {Double : Type} (doubles : Doubles Double) (token : List Char)
    (number : Numeral Double) : Prop :=
  token.head?.any startsNumber = true ∧ numberToken token = (token, []) ∧
    convert doubles token = some number

theorem numberRun_digits_append {digits : List Char} (all : digits.all Char.isDigit = true)
    (more : List Char) :
    numberRun false (digits ++ more) =
      (digits ++ (numberRun false more).1, (numberRun false more).2) := by
  induction digits with
  | nil => rfl
  | cons char digits ih =>
    rw [List.all_cons, Bool.and_eq_true] at all
    rw [List.cons_append, numberRun, if_pos (by simp [all.1]), ih all.2]
    rfl

/-- A digit ends the place of a sign. -/
theorem numberRun_marked {digits : List Char} (spelled : Digits digits) :
    numberRun true digits = (digits, []) := by
  obtain ⟨some', all⟩ := spelled
  cases digits with
  | nil => exact absurd rfl some'
  | cons char digits =>
    rw [List.all_cons, Bool.and_eq_true] at all
    rw [numberRun, if_pos (by simp [all.1]), numberRun_digits all.2]

theorem numberRun_exponent {exponent : List Char} (spelled : Exponent exponent) :
    numberRun false exponent = (exponent, []) := by
  rcases spelled with rfl | ⟨mark, sign, digits, named, signed, spelled, rfl⟩
  · rfl
  · have taken : numberRun true (sign ++ digits) = (sign ++ digits, []) := by
      rcases signed with rfl | rfl | rfl
      · exact numberRun_marked spelled
      all_goals
        rw [List.singleton_append, numberRun, if_neg (by decide), if_neg (by decide),
          if_pos (by decide), numberRun_digits spelled.2]
    have other : (mark.isDigit || decide (mark = '.')) = false ∧ isExponent mark = true := by
      rcases named with rfl | rfl <;> exact ⟨by decide, by decide⟩
    rw [numberRun, if_neg (by rw [other.1]; exact Bool.false_ne_true), if_pos other.2, taken]

theorem numberRun_fraction {fraction exponent : List Char} (point : Fraction fraction)
    (power : Exponent exponent) :
    numberRun false (fraction ++ exponent) = (fraction ++ exponent, []) := by
  rcases point with rfl | ⟨digits, spelled, rfl⟩
  · exact numberRun_exponent power
  · rw [List.cons_append, numberRun, if_pos (by decide), numberRun_digits_append spelled.2,
      numberRun_exponent power]

/-- The number loop takes a number of JSON whole. -/
theorem numberToken_text {token : List Char} (spelled : NumberText token) :
    token.head?.any startsNumber = true ∧ numberToken token = (token, []) := by
  obtain ⟨whole, fraction, exponent, read, point, power, rfl⟩ := spelled
  obtain ⟨number, read⟩ := Option.isSome_iff_exists.mp read
  have starts := (integer_token read).1
  have nonempty : whole ≠ [] := by
    rintro rfl
    cases starts
  refine ⟨by rw [List.head?_append_of_ne_nil _ nonempty]; exact starts, ?_⟩
  obtain ⟨digits, natural, some', all, _, shape⟩ := integer?_cases read
  cases shape with
  | inl negative =>
    rw [negative.1, List.cons_append, numberToken, if_pos rfl, numberRun_digits_append all,
      numberRun_fraction point power]
  | inr positive =>
    obtain ⟨rfl, plain, _⟩ := positive
    cases whole with
    | nil => exact absurd rfl some'
    | cons char digits =>
      have unsigned : char ≠ '-' := fun minus => plain (by rw [minus, List.head?_cons])
      rw [List.cons_append, numberToken, if_neg unsigned, ← List.cons_append,
        numberRun_digits_append all, numberRun_fraction point power]

theorem RfcNumber.loose {Double : Type} {doubles : Doubles Double} {token : List Char}
    {number : Numeral Double} (spelled : RfcNumber doubles token number) :
    LooseNumber doubles token number := by
  cases spelled with
  | integer read fits =>
    obtain ⟨starts, whole, plain, int64⟩ := integer_token read
    refine ⟨starts, whole, ?_⟩
    rw [if_pos fits] at int64
    simp only [convert, plain, int64]
    rfl
  | double text large read =>
    obtain ⟨starts, whole⟩ := numberToken_text text
    refine ⟨starts, whole, ?_⟩
    unfold convert
    split
    case isTrue =>
      rw [read]
      rfl
    case isFalse plain =>
      obtain ⟨digits, fraction, exponent, integer, point, power, rfl⟩ := text
      have none : fraction ++ exponent = [] := by
        rcases point with rfl | ⟨_, _, rfl⟩
        · rcases power with rfl | ⟨mark, _, _, named, _, _, rfl⟩
          · rfl
          · exact absurd (by rcases named with rfl | rfl <;> simp [isFraction, isExponent]) plain
        · exact absurd (by simp [isFraction]) plain
      obtain ⟨number, integer⟩ := Option.isSome_iff_exists.mp integer
      rw [none, List.append_nil] at read large ⊢
      have int64 := (integer_token integer).2.2.2
      rw [if_neg (large number integer)] at int64
      rw [int64, read]
      rfl

/-- The bytes after a value do not continue a number. -/
def Follows (rest : List UInt8) : Prop :=
  ∀ byte, rest.head? = some byte → isNumeral (latin byte) = false

section Numbers

variable {Double : Type} {doubles : Doubles Double}

theorem parseNumber_sound {bytes rest : List UInt8} {tree : Json Double}
    (starts : bytes.head?.any (fun byte => startsNumber (latin byte)) = true)
    (read : parseNumber doubles bytes = .ok (tree, rest)) :
    ∃ token number, tree = .number number ∧ LooseNumber doubles token number ∧
      bytes = encode token ++ rest := by
  obtain ⟨whole, numerals, again⟩ := numberToken_spec (bytes.map latin)
  simp only [parseNumber] at read
  generalize token_eq : (numberToken (bytes.map latin)).1 = token at whole numerals again read
  split at read
  case h_1 number made =>
    cases read
    refine ⟨token, number, rfl, ⟨?_, again, made⟩, ?_⟩
    · cases bytes with
      | nil => cases starts
      | cons byte bytes =>
        have first : startsNumber (latin byte) = true := starts
        cases token with
        | nil =>
          have none := numberToken_starts first (bytes.map latin)
          rw [← List.map_cons, token_eq] at none
          exact absurd rfl none
        | cons char token =>
          obtain ⟨rfl, _⟩ := List.cons.inj whole
          exact first
    · have taken : (bytes.take token.length).map latin = token := by
        rw [List.map_take, ← whole, List.take_left']
        rfl
      have spelled := @encode_latin (bytes.take token.length) (by rw [taken]; exact numerals)
      rw [taken] at spelled
      rw [spelled, List.take_append_drop]
  case h_2 => cases read

theorem parseNumber_complete {token : List Char} {number : Numeral Double} {rest : List UInt8}
    (loose : LooseNumber doubles token number) (follows : Follows rest) :
    parseNumber doubles (encode token ++ rest) = .ok (.number number, rest) := by
  obtain ⟨starts, whole, made⟩ := loose
  have numerals := (numberToken_spec token).2.1
  rw [whole] at numerals
  have ends : Ends (rest.map latin) := by
    intro char head
    rw [List.head?_map] at head
    obtain ⟨byte, first, rfl⟩ := Option.map_eq_some_iff.mp head
    exact follows byte first
  have nonempty : token ≠ [] := by
    rintro rfl
    cases starts
  have taken : numberToken ((encode token ++ rest).map latin) = (token, rest.map latin) := by
    rw [List.map_append, latin_encode numerals,
      numberToken_append nonempty whole ends]
  have size : (encode token).length = token.length := by
    rw [← List.length_map latin, latin_encode numerals]
  simp only [parseNumber, taken, made]
  rw [← size, List.drop_left']
  rfl

end Numbers

end Fantastic.Swift.JsonBytes
