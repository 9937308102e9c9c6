import Fantastic.Parity.FilePump
import Fantastic.Python.ContextProjection
import Fantastic.Swift.RecordCodable
import Mathlib.Algebra.Order.Ring.Unbundled.Rat

/-!
# The token budget of a record in the three runtimes

`context.rs` and `Context.swift` beside `ai_core/context.py`: the window, the output reserve and
the budget that a record allows. Integers are as the JSON text has them; Rust and Swift hold one
that does not fit 64 bits as a double. An overflow panics or traps, and so does `Int64(_:)` of the
double 2^63.
-/

namespace Fantastic.Parity

open Fantastic.Python (Runtime PyError getD)
open Fantastic.Python.Ai (Numerals asPosInt resolveContextWindow outputReserve budget stripChars
  isSpace isdigit strip plainRuntime asciiNumerals intOfText
  intOfChars intSpace readDigits decimalValue intOfFloat
  defaultContextWindow defaultOutputReserve budgetFloor)
open Fantastic.Swift (InInt64 wholeOf ofInt_wholeOf)

/-! ### Numbers in texts -/

def digitsValue (digits : List Char) : Nat :=
  digits.foldl (fun value char => 10 * value + (char.toNat - 48)) 0

/-- `str::parse::<i64>` and `Int64(_:)`: digits, after a sign or not. -/
def parseInt64 (chars : List Char) : Option Int :=
  let negative := chars.head? = some '-'
  let digits := if negative ∨ chars.head? = some '+' then chars.tail else chars
  let number : Int := if negative then -(digitsValue digits) else digitsValue digits
  if digits ≠ [] ∧ digits.all Char.isDigit ∧ InInt64 number then some number else none

/-- What `str::trim` takes off. -/
def isWhiteSpace (char : Char) : Bool :=
  let code := char.toNat
  (9 ≤ code && code ≤ 13) || code == 32 || code == 0x85 || code == 0xa0 || code == 0x1680 ||
    (0x2000 ≤ code && code ≤ 0x200a) || code == 0x2028 || code == 0x2029 || code == 0x202f ||
    code == 0x205f || code == 0x3000

/-- `CharacterSet.whitespaces`: the space separators and the tab. -/
def isBlankSpace (char : Char) : Bool :=
  let code := char.toNat
  code == 9 || code == 32 || code == 0xa0 || code == 0x1680 ||
    (0x2000 ≤ code && code ≤ 0x200a) || code == 0x202f || code == 0x205f || code == 0x3000

def rustText64 (text : String) : Option Int :=
  parseInt64 (stripChars isWhiteSpace text.toList)

def swiftText64 (text : String) : Option Int :=
  parseInt64 (stripChars isBlankSpace text.toList)

/-! ### Rust -/

/-- `as i64` of a number that may lie outside. -/
def saturate (number : Int) : Int :=
  max (-(2 ^ 63)) (min number (2 ^ 63 - 1))

def rustPosInt : Value → Option Int
  | .int number => if 0 < saturate number then some (saturate number) else none
  | .float number =>
    if 0 < saturate (intOfFloat number) then some (saturate (intOfFloat number)) else none
  | .str text => (rustText64 text).filter fun number => 0 < number
  | _ => none

def rustWindow (record : Dict) : Int :=
  ((rustPosInt (getD record "context_window")).or (rustPosInt (getD record "num_ctx"))).getD
    defaultContextWindow

def rustReserve (record : Dict) : Int :=
  match getD record "output_reserve" with
  | .int number => if 0 ≤ number ∧ number < 2 ^ 63 then number else defaultOutputReserve
  | .str text => (rustText64 text).getD defaultOutputReserve
  | _ => defaultOutputReserve

/-- The difference, where it has 64 bits, and no less than the floor. -/
def flooredBudget (window reserve : Int) : Option Int :=
  if InInt64 (window - reserve) then some (max (window - reserve) budgetFloor) else none

def rustBudget (record : Dict) : Option Int :=
  flooredBudget (rustWindow record) (rustReserve record)

/-! ### Swift -/

/-- `asInt` of a number or a text. -/
def swiftInt : Value → Option (Option Int)
  | .int number =>
    if InInt64 number then some (some number)
    else if 0 < number then if number ≤ 2 ^ 63 + 1024 then none else some none
    else if -(2 ^ 63) - 1024 ≤ number then some (some (-(2 ^ 63)))
    else some none
  | value => asInt (some value)

/-- `metaPosInt`, past the lookup. -/
def swiftPosInt (value : Value) : Option (Option Int) :=
  match swiftInt value with
  | none => none
  | some (some number) => some (if 0 < number then some number else none)
  | some none =>
    match value with
    | .str text => some ((swiftText64 text).filter fun number => 0 < number)
    | _ => some none

def swiftWindow (record : Dict) : Option Int :=
  match swiftPosInt (getD record "context_window") with
  | none => none
  | some (some window) => some window
  | some none =>
    (swiftPosInt (getD record "num_ctx")).map fun window => window.getD defaultContextWindow

def swiftReserve (record : Dict) : Option Int :=
  let value := getD record "output_reserve"
  match swiftInt value with
  | none => none
  | some (some number) => some (if 0 ≤ number then number else defaultOutputReserve)
  | some none =>
    match value with
    | .str text => some ((swiftText64 text).getD defaultOutputReserve)
    | _ => some defaultOutputReserve

def swiftBudget (record : Dict) : Option Int :=
  (swiftWindow record).bind fun window =>
    (swiftReserve record).bind fun reserve => flooredBudget window reserve

/-! ### The law and its condition -/

/-- The three runtimes come to the same numbers, and the budget is within its bounds. -/
def BudgetsAgree (runtime : Runtime) (numerals : Numerals) (record : Dict) : Prop :=
  ∃ window reserve allowed, resolveContextWindow runtime numerals record = .ok window ∧
    rustWindow record = window ∧ swiftWindow record = some window ∧
    outputReserve runtime numerals record = .ok reserve ∧ rustReserve record = reserve ∧
    swiftReserve record = some reserve ∧
    budget runtime numerals record = .ok allowed ∧ rustBudget record = some allowed ∧
    swiftBudget record = some allowed ∧ 256 ≤ allowed ∧ allowed ≤ max 256 window

/-- ASCII digits for a number of 64 bits, with space separators and tabs around them. -/
structure Numeral (text : String) (number : Nat) : Prop where
  spelled : ∃ front digits back, text.toList = front ++ digits ++ back ∧
    front.all isBlankSpace = true ∧ back.all isBlankSpace = true ∧ digits ≠ [] ∧
    digits.all Char.isDigit = true ∧ digits.length ≤ Python.Json.maxStrDigits ∧
    digitsValue digits = number
  small : number < 2 ^ 63

/-- What the three readers of a window take for the same: no number above zero for any of them, or
one that Swift holds exactly. -/
def PlainWindow (runtime : Runtime) (numerals : Numerals) : Value → Prop
  | .int number => number < 2 ^ 63
  | .float number => number ≤ 0 ∨ ∃ whole, wholeOf number = some whole ∧ whole < 2 ^ 63
  | .str text => (∃ number, Numeral text number) ∨
      (isdigit numerals (strip text) = true →
        ∃ number, intOfText runtime numerals text = .ok number ∧ number ≤ 0) ∧
      (∀ number ∈ rustText64 text, number ≤ 0) ∧ ∀ number ∈ swiftText64 text, number ≤ 0
  | _ => True

/-- A number above zero. -/
def Counts : Value → Prop
  | .int number => 0 < number
  | .float number => 0 < number
  | .str text => ∃ number, Numeral text number ∧ 0 < number
  | _ => False

/-- The same for a reserve, which only Swift reads from a double, and only Python does not read
from a negative text. -/
def PlainReserve (numerals : Numerals) : Value → Prop
  | .int number => number < 2 ^ 63
  | .float number => ∀ whole, wholeOf number = some whole → whole < 0 ∨ 2 ^ 63 < whole
  | .str text => (∃ number, Numeral text number) ∨
      isdigit numerals (strip text) = false ∧ rustText64 text = none ∧ swiftText64 text = none
  | _ => True

/-- `num_ctx` is only read where `context_window` holds no number above zero. -/
def PlainRecord (runtime : Runtime) (numerals : Numerals) (record : Dict) : Prop :=
  PlainWindow runtime numerals (getD record "context_window") ∧
    (Counts (getD record "context_window") ∨
      PlainWindow runtime numerals (getD record "num_ctx")) ∧
    PlainReserve numerals (getD record "output_reserve")

/-! ### Texts -/

theorem stripChars_between {space : Char → Bool} {front digits back : List Char}
    (before : ∀ char ∈ front, space char = true) (after : ∀ char ∈ back, space char = true)
    (inside : ∀ char ∈ digits, space char = false) :
    stripChars space (front ++ digits ++ back) = digits := by
  have plain : ∀ chars : List Char, (∀ char ∈ chars, space char = false) →
      chars.dropWhile space = chars := by
    intro chars none
    cases chars with
    | nil => rfl
    | cons char rest => rw [List.dropWhile_cons_of_neg (by simp [none char])]
  unfold stripChars
  rw [List.append_assoc, List.dropWhile_append_of_pos before]
  cases digits with
  | nil =>
    rw [List.nil_append, List.dropWhile_eq_nil_iff.mpr after]
    rfl
  | cons char rest =>
    rw [List.cons_append, List.dropWhile_cons_of_neg (by simp [inside char]),
      ← List.cons_append, List.reverse_append,
      List.dropWhile_append_of_pos (fun char member => after char (List.mem_reverse.mp member)),
      plain _ (fun char member => inside char (List.mem_reverse.mp member)), List.reverse_reverse]

theorem digit_code {char : Char} (digit : char.isDigit = true) :
    48 ≤ char.toNat ∧ char.toNat ≤ 57 := by
  simp only [Char.isDigit, Bool.and_eq_true, decide_eq_true_eq] at digit
  exact ⟨digit.1, digit.2⟩

theorem blank_code {char : Char} (blank : isBlankSpace char = true) :
    isSpace char = true ∧ isWhiteSpace char = true ∧ intSpace char = true := by
  have big : ∀ code : Nat, code = char.toNat → (code == 9 || code == 32 || code == 0xa0 ||
      code == 0x1680 || (0x2000 ≤ code && code ≤ 0x200a) || code == 0x202f || code == 0x205f ||
      code == 0x3000) = true → isSpace char = true ∧ isWhiteSpace char = true ∧
        intSpace char = true := by
    rintro code rfl listed
    simp only [Bool.or_eq_true, Bool.and_eq_true, beq_iff_eq, decide_eq_true_eq] at listed
    have space : isSpace char = true := by
      simp only [isSpace, Bool.or_eq_true, Bool.and_eq_true, beq_iff_eq, decide_eq_true_eq]
      omega
    refine ⟨space, ?_, ?_⟩
    · simp only [isWhiteSpace, Bool.or_eq_true, Bool.and_eq_true, beq_iff_eq, decide_eq_true_eq]
      omega
    · unfold intSpace
      split
      · simp only [Bool.or_eq_true, Bool.and_eq_true, beq_iff_eq, decide_eq_true_eq]
        by_cases tab : char.toNat = 9
        · left
          omega
        · right
          have code : char.toNat = 32 := by omega
          rw [← Char.ofNat_toNat char, code]
      · exact space
  exact big _ rfl blank

theorem digit_plain {char : Char} (digit : char.isDigit = true) :
    isSpace char = false ∧ isWhiteSpace char = false ∧ isBlankSpace char = false ∧
      intSpace char = false ∧ char ≠ '-' ∧ char ≠ '+' ∧ char ≠ '_' := by
  have code := digit_code digit
  have notSpace : char ≠ ' ' := by
    rintro rfl
    cases digit
  refine ⟨?_, ?_, ?_, ?_, ?_, ?_, ?_⟩
  · simp only [isSpace, Bool.or_eq_false_iff, Bool.and_eq_false_iff, beq_eq_false_iff_ne,
      decide_eq_false_iff_not]
    omega
  · simp only [isWhiteSpace, Bool.or_eq_false_iff, Bool.and_eq_false_iff, beq_eq_false_iff_ne,
      decide_eq_false_iff_not]
    omega
  · simp only [isBlankSpace, Bool.or_eq_false_iff, Bool.and_eq_false_iff, beq_eq_false_iff_ne,
      decide_eq_false_iff_not]
    omega
  · unfold intSpace
    rw [if_pos (by omega)]
    simp only [Bool.or_eq_false_iff, Bool.and_eq_false_iff, beq_eq_false_iff_ne,
      decide_eq_false_iff_not]
    exact ⟨by omega, notSpace⟩
  all_goals
    rintro rfl
    cases digit

theorem readDigits_digits (numerals : Numerals) (digits : List Char) :
    ∀ (value count : Nat) (after : Bool), digits.all Char.isDigit = true →
      (digits = [] → after = true) → readDigits numerals after value count digits =
        some (digits.foldl (fun value char => 10 * value + (char.toNat - 48)) value,
          count + digits.length) := by
  induction digits with
  | nil =>
    intro value count after _ ended
    rw [readDigits, if_pos (ended rfl)]
    rfl
  | cons char rest ih =>
    intro value count after all _
    rw [List.all_cons, Bool.and_eq_true] at all
    have code := digit_code all.1
    have plain := digit_plain all.1
    have read : decimalValue numerals char = some (char.toNat - 48) := by
      rw [decimalValue, if_pos (by omega), if_pos all.1]
    rw [readDigits, if_neg plain.2.2.2.2.2.2, read]
    simp only
    rw [ih _ _ true all.2 fun _ => rfl, List.foldl_cons, List.length_cons]
    congr 2
    omega

/-- All three conversions take a numeral for its number. -/
theorem Numeral.read {text : String} {number : Nat} (numeral : Numeral text number)
    (runtime : Runtime) (numerals : Numerals) :
    isdigit numerals (strip text) = true ∧ intOfText runtime numerals text = .ok (number : Int) ∧
      rustText64 text = some (number : Int) ∧ swiftText64 text = some (number : Int) := by
  obtain ⟨⟨front, digits, back, spelled, before, after, some', all, short, value⟩, small⟩ := numeral
  rw [List.all_eq_true] at before after
  have each := List.all_eq_true.mp all
  have stripped : ∀ space : Char → Bool, (∀ char, isBlankSpace char = true → space char = true) →
      (∀ char, char.isDigit = true → space char = false) →
        stripChars space text.toList = digits := by
    intro space blanks plain
    rw [spelled]
    exact stripChars_between (fun char member => blanks char (before char member))
      (fun char member => blanks char (after char member)) fun char member => plain char (each char member)
  have unsigned : digits.head? ≠ some '-' ∧ digits.head? ≠ some '+' := by
    constructor
    all_goals
      intro head
      have digit := each _ (List.mem_of_head? head)
      cases digit
  have parsed : parseInt64 digits = some (number : Int) := by
    have fits : InInt64 (number : Int) := by
      unfold InInt64
      omega
    simp [parseInt64, unsigned.1, unsigned.2, some', all, value, fits]
  have spaces : stripChars isSpace text.toList = digits :=
    stripped isSpace (fun _ blank => (blank_code blank).1) fun _ digit => (digit_plain digit).1
  refine ⟨?_, ?_, ?_, ?_⟩
  · have ascii : ∀ char ∈ digits, (if char.toNat < 128 then char.isDigit
        else numerals.isDigit char) = true := by
      intro char member
      have code := digit_code (each char member)
      rw [if_pos (by omega), each char member]
    simp only [isdigit, strip, spaces, String.toList_ofList, Bool.and_eq_true, Bool.not_eq_true',
      List.isEmpty_eq_false_iff]
    exact ⟨some', List.all_eq_true.mpr ascii⟩
  · have ints : stripChars intSpace text.toList = digits :=
      stripped intSpace (fun _ blank => (blank_code blank).2.2)
        fun _ digit => (digit_plain digit).2.2.2.1
    have read := readDigits_digits numerals digits 0 0 false all fun none => absurd none some'
    rw [← digitsValue, value, Nat.zero_add] at read
    simp only [intOfText, intOfChars, ints, unsigned.1, unsigned.2, or_self, if_false, read]
    rw [if_neg (by omega)]
  · rw [rustText64, stripped isWhiteSpace (fun _ blank => (blank_code blank).2.1)
      fun _ digit => (digit_plain digit).2.1, parsed]
  · rw [swiftText64, stripped isBlankSpace (fun _ blank => blank)
      fun _ digit => (digit_plain digit).2.2.1, parsed]

/-! ### One value -/

theorem whole_float {number : Dyadic} {whole : Int} (same : wholeOf number = some whole) :
    intOfFloat number = whole ∧ (0 < number ↔ 0 < whole) := by
  have float : number.toRat = whole := by
    rw [← ofInt_wholeOf same]
    exact Dyadic.toRat_intCast whole
  constructor
  · rw [intOfFloat, float]
    simp
  · rw [← Dyadic.toRat_lt_toRat_iff, float, Dyadic.toRat_zero]
    exact Rat.intCast_pos

theorem intOfFloat_nonpos {number : Dyadic} (low : number ≤ 0) : intOfFloat number ≤ 0 := by
  rw [← Dyadic.toRat_le_toRat_iff, Dyadic.toRat_zero] at low
  have opposite : 0 ≤ (-number.toRat.num).tdiv number.toRat.den :=
    Int.tdiv_nonneg (by have := Rat.num_nonpos.mpr low; omega) (Int.natCast_nonneg _)
  rw [Int.neg_tdiv] at opposite
  unfold intOfFloat
  omega

/-- A window that is no number above zero, or one of 64 bits. -/
def Bounded (window : Option Int) : Prop :=
  ∀ number ∈ window, 0 < number ∧ number < 2 ^ 63

theorem bounded_none : Bounded none := by
  intro number member
  cases member

theorem saturate_sign {number : Int} (small : number < 2 ^ 63) :
    (if 0 < saturate number then some (saturate number) else none) =
      if 0 < number then some number else none := by
  unfold saturate
  by_cases positive : 0 < number
  · have kept : max (-(2 ^ 63)) (min number (2 ^ 63 - 1)) = number := by omega
    rw [kept]
  · rw [if_neg positive, if_neg (by omega)]

theorem bounded_positive {number : Int} (small : number < 2 ^ 63) :
    Bounded (if 0 < number then some number else none) := by
  intro window member
  split at member
  case isTrue positive =>
    cases member
    exact ⟨positive, small⟩
  case isFalse => cases member

theorem float_window {number : Dyadic} (runtime : Runtime) (numerals : Numerals)
    (plain : PlainWindow runtime numerals (.float number)) :
    ∃ window, asPosInt runtime numerals (.float number) = .ok window ∧
      rustPosInt (.float number) = window ∧ swiftPosInt (.float number) = some window ∧
      Bounded window := by
  have negative : number ≤ 0 → ¬0 < number := by
    intro low
    rw [← Dyadic.toRat_lt_toRat_iff]
    rw [← Dyadic.toRat_le_toRat_iff] at low
    exact Rat.not_lt.mpr low
  cases same : wholeOf number with
  | none =>
    have low : number ≤ 0 := by
      rcases plain with low | ⟨whole, found, _⟩
      · exact low
      · rw [same] at found
        cases found
    have cut := intOfFloat_nonpos low
    refine ⟨none, ?_, ?_, ?_, bounded_none⟩
    · rw [asPosInt, if_neg (negative low)]
    · rw [rustPosInt, saturate_sign (by omega), if_neg (by omega)]
    · simp only [swiftPosInt, swiftInt, asInt, same]
  | some whole =>
    obtain ⟨value, sign⟩ := whole_float same
    have small : whole < 2 ^ 63 := by
      rcases plain with low | ⟨found, found_eq, small⟩
      · have := sign.not.mp (negative low)
        omega
      · rw [same] at found_eq
        cases found_eq
        exact small
    refine ⟨if 0 < whole then some whole else none, ?_, ?_, ?_, bounded_positive small⟩
    · rw [asPosInt, value]
      simp only [sign]
    · rw [rustPosInt, value, saturate_sign small]
    · by_cases tiny : whole < -(2 ^ 63)
      · simp only [swiftPosInt, swiftInt, asInt, same, if_pos (Or.inl tiny : _ ∨ 2 ^ 63 < whole)]
        rw [if_neg (by omega)]
      · have fits : ¬(whole < -(2 ^ 63) ∨ 2 ^ 63 < whole) := by omega
        have inside : whole ≠ 2 ^ 63 := by omega
        simp only [swiftPosInt, swiftInt, asInt, same, if_neg fits, if_neg inside]

theorem int_swift {number : Int} (small : number < 2 ^ 63) :
    (InInt64 number ∧ swiftInt (.int number) = some (some number)) ∨
      number < -(2 ^ 63) ∧ ∃ read, swiftInt (.int number) = some read ∧ ∀ low ∈ read, low < 0 := by
  by_cases fits : InInt64 number
  · exact .inl ⟨fits, by rw [swiftInt, if_pos fits]⟩
  · have low : number < -(2 ^ 63) := by
      unfold InInt64 at fits
      omega
    right
    rw [swiftInt, if_neg fits, if_neg (by omega)]
    refine ⟨low, ?_⟩
    split
    · refine ⟨_, rfl, ?_⟩
      intro read member
      cases member
      decide
    · refine ⟨_, rfl, ?_⟩
      intro read member
      cases member

theorem plainWindow_read {value : Value} (runtime : Runtime) (numerals : Numerals)
    (plain : PlainWindow runtime numerals value) :
    ∃ window, asPosInt runtime numerals value = .ok window ∧ rustPosInt value = window ∧
      swiftPosInt value = some window ∧ Bounded window := by
  cases value with
  | float number => exact float_window runtime numerals plain
  | int number =>
    refine ⟨if 0 < number then some number else none, rfl, ?_, ?_, bounded_positive plain⟩
    · rw [rustPosInt, saturate_sign plain]
    · rcases int_swift plain with ⟨_, read⟩ | ⟨low, read, found, negative⟩
      · simp only [swiftPosInt, read]
      · rw [if_neg (by omega)]
        cases read with
        | none => simp only [swiftPosInt, found]
        | some number =>
          have sign : ¬0 < number := by
            have := negative number rfl
            omega
          simp only [swiftPosInt, found, if_neg sign]
  | str text =>
    have swift : swiftPosInt (.str text) =
        some ((swiftText64 text).filter fun number => 0 < number) := rfl
    have rust : rustPosInt (.str text) =
        (rustText64 text).filter fun number => 0 < number := rfl
    rcases plain with ⟨number, numeral⟩ | ⟨python, rustSmall, swiftSmall⟩
    · obtain ⟨digit, int, inRust, inSwift⟩ := numeral.read runtime numerals
      have small := numeral.small
      refine ⟨if 0 < (number : Int) then some (number : Int) else none, ?_, ?_, ?_,
        bounded_positive (by omega)⟩
      · rw [asPosInt, if_pos digit, int]
        rfl
      · rw [rust, inRust, Option.filter]
        simp only [decide_eq_true_eq]
      · rw [swift, inSwift, Option.filter]
        simp only [decide_eq_true_eq]
    · have noneOf : ∀ read : Option Int, (∀ number ∈ read, number ≤ 0) →
          (read.filter fun number => 0 < number) = none := by
        intro read low
        rw [Option.filter_eq_none_iff]
        intro number member
        have := low number member
        simp only [decide_eq_true_eq]
        omega
      refine ⟨none, ?_, ?_, ?_, bounded_none⟩
      · rw [asPosInt]
        split
        case isTrue digit =>
          obtain ⟨number, int, low⟩ := python digit
          rw [int]
          change Except.ok (if 0 < number then some number else none) = _
          rw [if_neg (by omega)]
        case isFalse => rfl
      · rw [rust, noneOf _ rustSmall]
      · rw [swift, noneOf _ swiftSmall]
  | null | bool _ | list _ | dict _ | bytes _ =>
    exact ⟨none, rfl, rfl, rfl, bounded_none⟩

theorem counts_read {value : Value} (runtime : Runtime) (numerals : Numerals)
    (counts : Counts value) : asPosInt runtime numerals value ≠ .ok none := by
  intro read
  cases value with
  | int number =>
    rw [asPosInt, if_pos (show 0 < number from counts)] at read
    cases read
  | float number =>
    rw [asPosInt, if_pos (show 0 < number from counts)] at read
    cases read
  | str text =>
    obtain ⟨number, numeral, positive⟩ := counts
    obtain ⟨digit, int, _⟩ := numeral.read runtime numerals
    rw [asPosInt, if_pos digit, int] at read
    change Except.ok (if 0 < (number : Int) then some (number : Int) else none) = _ at read
    rw [if_pos (by omega)] at read
    cases read
  | null | bool _ | list _ | dict _ | bytes _ => exact counts

theorem plainReserve_read {record : Dict} (runtime : Runtime) (numerals : Numerals)
    (plain : PlainReserve numerals (getD record "output_reserve")) :
    ∃ reserve, outputReserve runtime numerals record = .ok reserve ∧ rustReserve record = reserve ∧
      swiftReserve record = some reserve ∧ 0 ≤ reserve ∧ reserve < 2 ^ 63 := by
  unfold outputReserve rustReserve swiftReserve
  cases value : getD record "output_reserve" with
  | float number =>
    rw [value] at plain
    refine ⟨defaultOutputReserve, rfl, rfl, ?_, by decide, by decide⟩
    cases same : wholeOf number with
    | none => simp only [swiftInt, asInt, same]
    | some whole =>
      have outside := plain whole same
      by_cases far : whole < -(2 ^ 63) ∨ 2 ^ 63 < whole
      · simp only [swiftInt, asInt, same, if_pos far]
      · have inside : whole ≠ 2 ^ 63 := by omega
        have sign : ¬0 ≤ whole := by omega
        simp only [swiftInt, asInt, same, if_neg far, if_neg inside, if_neg sign]
  | int number =>
    rw [value] at plain
    refine ⟨if 0 ≤ number then number else defaultOutputReserve, rfl, ?_, ?_, ?_, ?_⟩
    · have small : number < 2 ^ 63 := plain
      simp only [small, and_true]
    · rcases int_swift plain with ⟨_, read⟩ | ⟨low, read, found, negative⟩
      · simp only [read]
      · rw [if_neg (by omega)]
        cases read with
        | none => simp only [found]
        | some number =>
          have sign : ¬0 ≤ number := by
            have := negative number rfl
            omega
          simp only [found, if_neg sign]
    · split
      · assumption
      · decide
    · split
      · exact plain
      · decide
  | str text =>
    rw [value] at plain
    have swift : swiftInt (.str text) = some none := rfl
    simp only [swift]
    rcases plain with ⟨number, numeral⟩ | ⟨python, inRust, inSwift⟩
    · obtain ⟨digit, int, inRust, inSwift⟩ := numeral.read runtime numerals
      have small := numeral.small
      refine ⟨number, ?_, ?_, ?_, by omega, by omega⟩
      · rw [if_pos digit, int]
      · rw [inRust]
        rfl
      · rw [inSwift]
        rfl
    · refine ⟨defaultOutputReserve, ?_, ?_, ?_, by decide, by decide⟩
      · rw [if_neg (by simp [python])]
      · rw [inRust]
        rfl
      · rw [inSwift]
        rfl
  | null | bool _ | list _ | dict _ | bytes _ =>
    exact ⟨defaultOutputReserve, rfl, rfl, rfl, by decide, by decide⟩

/-! ### The record -/

theorem plain_budgets (runtime : Runtime) (numerals : Numerals) (record : Dict)
    (plain : PlainRecord runtime numerals record) : BudgetsAgree runtime numerals record := by
  obtain ⟨first, second, third⟩ := plain
  obtain ⟨context, pythonContext, rustContext, swiftContext, contextBound⟩ :=
    plainWindow_read runtime numerals first
  obtain ⟨reserve, pythonReserve, rustReserve', swiftReserve', low, high⟩ :=
    plainReserve_read runtime numerals third
  have window : ∃ window, resolveContextWindow runtime numerals record = .ok window ∧
      rustWindow record = window ∧ swiftWindow record = some window ∧
      0 < window ∧ window < 2 ^ 63 := by
    unfold resolveContextWindow rustWindow swiftWindow
    rw [pythonContext, rustContext, swiftContext]
    cases context with
    | some window => exact ⟨window, rfl, rfl, rfl, contextBound window rfl⟩
    | none =>
      rcases second with counts | second
      · exact absurd pythonContext (counts_read runtime numerals counts)
      · obtain ⟨number, pythonNumber, rustNumber, swiftNumber, numberBound⟩ :=
          plainWindow_read runtime numerals second
        rw [pythonNumber, rustNumber, swiftNumber]
        cases number with
        | some window => exact ⟨window, rfl, rfl, rfl, numberBound window rfl⟩
        | none => exact ⟨defaultContextWindow, rfl, rfl, rfl, by decide, by decide⟩
  obtain ⟨window, python, rust, swift, positive, small⟩ := window
  have fits : InInt64 (window - reserve) := by
    unfold InInt64
    omega
  refine ⟨window, reserve, max (window - reserve) budgetFloor, python, rust, swift, pythonReserve,
    rustReserve', swiftReserve', ?_, ?_, ?_, Int.le_max_right _ _, ?_⟩
  · rw [budget, python, pythonReserve]
    rfl
  · rw [rustBudget, rust, rustReserve', flooredBudget, if_pos fits]
  · rw [swiftBudget, swift, swiftReserve', Option.bind_some, Option.bind_some, flooredBudget,
      if_pos fits]
  · unfold budgetFloor
    omega

/-- A record as it is written by hand: numbers, and one of them in quotes. -/
def quotedRecord : Dict where
  entries := [("context_window", .str " 8192"), ("output_reserve", .int 512)]
  nodup := by decide

theorem quoted_budgets : PlainRecord plainRuntime asciiNumerals quotedRecord ∧
    BudgetsAgree plainRuntime asciiNumerals quotedRecord := by
  have numeral : Numeral " 8192" 8192 :=
    ⟨⟨[' '], ['8', '1', '9', '2'], [], by decide, by decide, by decide, by decide, by decide,
      by decide, by decide⟩, by decide⟩
  have window : getD quotedRecord "context_window" = .str " 8192" := by decide
  have reserve : getD quotedRecord "output_reserve" = .int 512 := by decide
  have plain : PlainRecord plainRuntime asciiNumerals quotedRecord := by
    unfold PlainRecord
    rw [window, reserve]
    have small : (512 : Int) < 2 ^ 63 := by decide
    exact ⟨Or.inl ⟨8192, numeral⟩, Or.inl ⟨8192, numeral, by decide⟩, small⟩
  exact ⟨plain, plain_budgets plainRuntime asciiNumerals quotedRecord plain⟩

/-- A negative reserve in quotes. -/
def negativeReserve : Dict where
  entries := [("output_reserve", .str "-5")]
  nodup := by decide

/-- Python keeps its default, and Rust and Swift allow more than the window. -/
theorem negative_reserve_raises_the_budget :
    ¬BudgetsAgree plainRuntime asciiNumerals negativeReserve := by
  rintro ⟨window, reserve, allowed, -, -, -, python, rust, -⟩
  have rustValue : rustReserve negativeReserve = -5 := rfl
  have pythonValue : outputReserve plainRuntime asciiNumerals negativeReserve = .ok 1024 :=
    rfl
  rw [pythonValue] at python
  cases python
  rw [rustValue] at rust
  cases rust

end Fantastic.Parity
