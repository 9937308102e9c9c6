import Fantastic.Foundation.TurnWindow
import Fantastic.Python.JsonText

/-!
# Context windows and budgets

`ai_core/context.py`: the token estimate of a message and the budget an agent record
allows, with the `int(...)` conversions they go through. `str.isdigit` and the value of a
decimal digit are fixed for ASCII; beyond it they follow the Unicode tables of the
interpreter, which `Numerals` stands for.
-/

namespace Fantastic.Python.Ai

/-! ### Texts and numbers -/

/-- The digits outside ASCII: which characters `str.isdigit` takes, and which of them are
decimal digits, with their values. -/
structure Numerals where
  isDigit : Char → Bool
  decimal : Char → Option Nat

/-- `str.isspace` of one character. -/
def isSpace (char : Char) : Bool :=
  let code := char.toNat
  (9 ≤ code && code ≤ 13) || (28 ≤ code && code ≤ 32) || code == 0x85 || code == 0xa0 ||
    code == 0x1680 || (0x2000 ≤ code && code ≤ 0x200a) || code == 0x2028 || code == 0x2029 ||
    code == 0x202f || code == 0x205f || code == 0x3000

def stripChars (space : Char → Bool) (chars : List Char) : List Char :=
  ((chars.dropWhile space).reverse.dropWhile space).reverse

/-- `text.strip()`. -/
def strip (text : String) : String :=
  String.ofList (stripChars isSpace text.toList)

/-- `text.isdigit()`. -/
def isdigit (numerals : Numerals) (text : String) : Bool :=
  !text.toList.isEmpty && text.toList.all fun char =>
    if char.toNat < 128 then char.isDigit else numerals.isDigit char

def decimalValue (numerals : Numerals) (char : Char) : Option Nat :=
  if char.toNat < 128 then if char.isDigit then some (char.toNat - 48) else none
  else numerals.decimal char

/-- The blanks `int` skips: in ASCII the C blanks, and not the separators 28 to 31. -/
def intSpace (char : Char) : Bool :=
  if char.toNat < 128 then (9 ≤ char.toNat && char.toNat ≤ 13) || char == ' '
  else isSpace char

/-- Digits with single underscores between them: their value and how many they are. -/
def readDigits (numerals : Numerals) (afterDigit : Bool) (value count : Nat) :
    List Char → Option (Nat × Nat)
  | [] => if afterDigit then some (value, count) else none
  | char :: rest =>
    if char = '_' then if afterDigit then readDigits numerals false value count rest else none
    else
      match decimalValue numerals char with
      | none => none
      | some digit => readDigits numerals true (10 * value + digit) (count + 1) rest

def invalidLiteral (runtime : Runtime) (source : Value) : PyError :=
  .valueError ("invalid literal for int() with base 10: " ++ runtime.repr source)

def tooManyDigits (count : Nat) : PyError :=
  .valueError ("Exceeds the limit (4300 digits) for integer string conversion: value has " ++
    toString count ++ " digits; use sys.set_int_max_str_digits() to increase the limit")

def intOfChars (runtime : Runtime) (numerals : Numerals) (source : Value) (chars : List Char) :
    Except PyError Int :=
  let body := stripChars intSpace chars
  let negative := body.head? = some '-'
  let digits := if negative ∨ body.head? = some '+' then body.tail else body
  match readDigits numerals false 0 0 digits with
  | none => .error (invalidLiteral runtime source)
  | some (value, count) =>
    if Json.maxStrDigits < count then .error (tooManyDigits count)
    else .ok (if negative then -value else value)

/-- `int(text)`. -/
def intOfText (runtime : Runtime) (numerals : Numerals) (text : String) : Except PyError Int :=
  intOfChars runtime numerals (.str text) text.toList

/-- `int(value)` of a finite float: towards zero. -/
def intOfFloat (value : Dyadic) : Int :=
  value.toRat.num.tdiv value.toRat.den

/-- `int(value)`. Bytes are read as ASCII. -/
def intOf (runtime : Runtime) (numerals : Numerals) : Value → Except PyError Int
  | .bool value => .ok (if value then 1 else 0)
  | .int value => .ok value
  | .float value => .ok (intOfFloat value)
  | .str text => intOfText runtime numerals text
  | .bytes data =>
    intOfChars runtime numerals (.bytes data)
      (data.map fun byte => if byte < 128 then Char.ofNat byte.toNat else '?')
  | .null | .list _ | .dict _ => .error .typeError

/-! ### Estimates -/

def charsPerToken : Nat := 4
def defaultContextWindow : Int := 4096
def defaultOutputReserve : Int := 1024
def budgetFloor : Int := 256

def estimateOne (runtime : Runtime) (message : Dict) : Nat :=
  ((Json.dumps runtime (.dict message.entries)).length + charsPerToken - 1) / charsPerToken

def estimateTokens (runtime : Runtime) (messages : List Dict) : Nat :=
  TurnWindow.weight (estimateOne runtime) messages

/-! ### The budget of a record -/

def asPosInt (runtime : Runtime) (numerals : Numerals) : Value → Except PyError (Option Int)
  | .int value => .ok (if 0 < value then some value else none)
  | .float value => .ok (if 0 < value then some (intOfFloat value) else none)
  | .str text =>
    if isdigit numerals (strip text) then do
      let value ← intOfText runtime numerals text
      .ok (if 0 < value then some value else none)
    else .ok none
  | _ => .ok none

def resolveContextWindow (runtime : Runtime) (numerals : Numerals) (record : Dict) :
    Except PyError Int := do
  match ← asPosInt runtime numerals (getD record "context_window") with
  | some window => .ok window
  | none =>
    match ← asPosInt runtime numerals (getD record "num_ctx") with
    | some window => .ok window
    | none => .ok defaultContextWindow

def outputReserve (runtime : Runtime) (numerals : Numerals) (record : Dict) :
    Except PyError Int :=
  match getD record "output_reserve" with
  | .int value => .ok (if 0 ≤ value then value else defaultOutputReserve)
  | .str text =>
    if isdigit numerals (strip text) then intOfText runtime numerals text
    else .ok defaultOutputReserve
  | _ => .ok defaultOutputReserve

def budget (runtime : Runtime) (numerals : Numerals) (record : Dict) : Except PyError Int := do
  let window ← resolveContextWindow runtime numerals record
  let reserve ← outputReserve runtime numerals record
  .ok (max (window - reserve) budgetFloor)

/-- `_recent_n`: how many turns `compact` keeps as they are, between 1 and 50. -/
def recentN (runtime : Runtime) (numerals : Numerals) (record : Dict) : Nat :=
  let asked :=
    match intOf runtime numerals (getD record "recent_n") with
    | .ok count => count
    | .error _ => 6
  (max 1 (min asked 50)).toNat

theorem recentN_pos (runtime : Runtime) (numerals : Numerals) (record : Dict) :
    0 < recentN runtime numerals record := by
  unfold recentN
  generalize intOf runtime numerals (getD record "recent_n") = asked
  cases asked with
  | ok count => simp
  | error _ => simp

end Fantastic.Python.Ai
