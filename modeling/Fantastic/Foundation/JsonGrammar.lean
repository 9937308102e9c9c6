import Fantastic.Foundation.Value
import Mathlib.Data.List.TakeWhile

/-!
# Reading and writing JSON texts

A reader for the JSON grammar over lists of characters and a writer whose spelling (the
escapes, the blanks after separators, the digits of a float) is a parameter. Objects are
read with every member in order, repeated keys included: what a repeated key means is up
to the language that reads. What a style writes, the reader gives back.
-/

namespace Fantastic.JsonGrammar

/-! ### Reading -/

def isBlank (char : Char) : Bool :=
  char = ' ' || char = '\n' || char = '\r' || char = '\t'

def skip (chars : List Char) : List Char :=
  chars.dropWhile isBlank

def hexValue (char : Char) : Option Nat :=
  if '0' ≤ char ∧ char ≤ '9' then some (char.toNat - '0'.toNat)
  else if 'a' ≤ char ∧ char ≤ 'f' then some (char.toNat - 'a'.toNat + 10)
  else if 'A' ≤ char ∧ char ≤ 'F' then some (char.toNat - 'A'.toNat + 10)
  else none

/-- Four hexadecimal digits. -/
def readUnit : List Char → Option (Nat × List Char)
  | first :: second :: third :: fourth :: rest => do
      let a ← hexValue first
      let b ← hexValue second
      let c ← hexValue third
      let d ← hexValue fourth
      return (a * 4096 + b * 256 + c * 16 + d, rest)
  | _ => none

/-- The character of `\u`: one unit, or a surrogate pair. A surrogate alone is not a
character. -/
def readUnicode (chars : List Char) : Option (Char × List Char) := do
  let (unit, rest) ← readUnit chars
  if unit < 0xd800 ∨ 0xdfff < unit then return (Char.ofNat unit, rest)
  else if 0xdbff < unit then none
  else
    match rest with
    | '\\' :: 'u' :: rest => do
        let (low, rest) ← readUnit rest
        if 0xdc00 ≤ low ∧ low ≤ 0xdfff then
          return (Char.ofNat (0x10000 + (unit - 0xd800) * 1024 + (low - 0xdc00)), rest)
        else none
    | _ => none

def readEscape : List Char → Option (Char × List Char)
  | [] => none
  | char :: rest =>
    if char = 'u' then readUnicode rest
    else if char = '\x22' ∨ char = '\\' ∨ char = '/' then some (char, rest)
    else if char = 'n' then some ('\n', rest)
    else if char = 'r' then some ('\r', rest)
    else if char = 't' then some ('\t', rest)
    else if char = 'f' then some ('\x0c', rest)
    else if char = 'b' then some ('\x08', rest)
    else none

/-- One character of a string, escaped or plain. -/
def readChar : List Char → Option (Char × List Char)
  | [] => none
  | char :: rest =>
    if char = '\\' then readEscape rest
    else if char.toNat < 0x20 then none
    else some (char, rest)

/-- A string, past its opening quote. -/
def readString : Nat → List Char → Option (List Char × List Char)
  | 0, _ => none
  | fuel + 1, chars =>
    if chars.head? = some '\x22' then some ([], chars.tail)
    else do
      let (char, rest) ← readChar chars
      let (more, rest) ← readString fuel rest
      return (char :: more, rest)

def isNumeral (char : Char) : Bool :=
  char.isDigit || char = '-' || char = '+' || char = '.' || char = 'e' || char = 'E'

/-- `0`, or digits that do not start with one. -/
def natural? (digits : List Char) : Option Nat :=
  if digits.all Char.isDigit ∧ digits ≠ [] ∧ (digits.head? = some '0' → digits.length = 1) then
    some (Nat.ofDigitChars 10 digits 0)
  else none

def integer? : List Char → Option Int
  | '-' :: digits => (natural? digits).map fun number => -(number : Int)
  | digits => (natural? digits).map Int.ofNat

/-- The longest run of number characters: an integer, or a float of the language. -/
def readNumber (floats : List Char → Option Dyadic) (chars : List Char) :
    Option (Value × List Char) :=
  let token := chars.takeWhile isNumeral
  let rest := chars.dropWhile isNumeral
  match integer? token with
  | some number => some (.int number, rest)
  | none => (floats token).map fun number => (.float number, rest)

def expect : List Char → List Char → Option (List Char)
  | [], chars => some chars
  | _ :: _, [] => none
  | wanted :: more, char :: rest => if wanted = char then expect more rest else none

mutual

def readValue (floats : List Char → Option Dyadic) :
    Nat → List Char → Option (Value × List Char)
  | 0, _ => none
  | fuel + 1, chars =>
    match skip chars with
    | [] => none
    | char :: rest =>
      if char = '\x22' then
        (readString (rest.length + 1) rest).map fun read => (.str (String.ofList read.1), read.2)
      else if char = '[' then
        if (skip rest).head? = some ']' then some (.list [], (skip rest).tail)
        else (readItems floats fuel rest).map fun read => (.list read.1, read.2)
      else if char = '\x7b' then
        if (skip rest).head? = some '\x7d' then some (.dict [], (skip rest).tail)
        else (readMembers floats fuel rest).map fun read => (.dict read.1, read.2)
      else if char = 'n' then (expect "ull".toList rest).map fun rest => (.null, rest)
      else if char = 't' then (expect "rue".toList rest).map fun rest => (.bool true, rest)
      else if char = 'f' then (expect "alse".toList rest).map fun rest => (.bool false, rest)
      else readNumber floats (char :: rest)

/-- The items of an array that has some, up to its closing bracket. -/
def readItems (floats : List Char → Option Dyadic) :
    Nat → List Char → Option (List Value × List Char)
  | 0, _ => none
  | fuel + 1, chars => do
      let (item, rest) ← readValue floats fuel chars
      match skip rest with
      | ',' :: rest => do
          let (items, rest) ← readItems floats fuel rest
          return (item :: items, rest)
      | ']' :: rest => return ([item], rest)
      | _ => none

/-- The members of an object that has some, up to its closing brace. -/
def readMembers (floats : List Char → Option Dyadic) :
    Nat → List Char → Option (List (String × Value) × List Char)
  | 0, _ => none
  | fuel + 1, chars =>
    match skip chars with
    | '\x22' :: rest => do
        let (key, rest) ← readString (rest.length + 1) rest
        match skip rest with
        | ':' :: rest => do
            let (item, rest) ← readValue floats fuel rest
            match skip rest with
            | ',' :: rest => do
                let (members, rest) ← readMembers floats fuel rest
                return ((String.ofList key, item) :: members, rest)
            | '\x7d' :: rest => return ([(String.ofList key, item)], rest)
            | _ => none
        | _ => none
    | _ => none

end

/-- A whole text: one value and blanks around it. -/
def read (floats : List Char → Option Dyadic) (text : List Char) : Option Value :=
  match readValue floats (text.length + 1) text with
  | some (value, rest) => if skip rest = [] then some value else none
  | none => none

/-! ### Objects as maps -/

/-- A map filled from a list of members: a repeated key keeps its place and takes the later
value. -/
def mapOf (members : List (String × Value)) : Dict :=
  members.foldl (fun dict entry => dict.insert entry.1 entry.2) .empty

mutual

/-- A raw value as a value of the language, whose objects are maps. -/
def toNative : Value → Value
  | .list items => .list (toNativeItems items)
  | .dict members => .dict (mapOf (toNativeMembers members)).entries
  | value => value

def toNativeItems : List Value → List Value
  | [] => []
  | item :: items => toNative item :: toNativeItems items

def toNativeMembers : List (String × Value) → List (String × Value)
  | [] => []
  | (key, item) :: members => (key, toNative item) :: toNativeMembers members

end

/-! ### Writing -/

/-- How a serializer spells a text. Its escapes read back, and no escape starts with the
quote that would end the string. -/
structure Style where
  escape : Char → List Char
  afterComma : List Char
  afterColon : List Char
  float : Dyadic → List Char
  bytes : List UInt8 → List Char
  escape_reads : ∀ char rest, readChar (escape char ++ rest) = some (char, rest)
  escape_opens : ∀ char rest, (escape char ++ rest).head? ≠ some '\x22'
  afterComma_blank : ∀ char ∈ afterComma, isBlank char = true
  afterColon_blank : ∀ char ∈ afterColon, isBlank char = true

namespace Style

def quoted (style : Style) (text : String) : List Char :=
  [ '\x22'] ++ text.toList.flatMap style.escape ++ [ '\x22']

mutual

def write (style : Style) : Value → List Char
  | .null => "null".toList
  | .bool value => if value then "true".toList else "false".toList
  | .int value => (toString value).toList
  | .float value => style.float value
  | .str text => style.quoted text
  | .bytes data => style.bytes data
  | .list items => [ '['] ++ writeItems style items ++ [ ']']
  | .dict members => [ '\x7b'] ++ writeMembers style members ++ [ '\x7d']

def writeItems (style : Style) : List Value → List Char
  | [] => []
  | item :: items =>
    write style item ++
      if items.isEmpty then [] else [ ','] ++ style.afterComma ++ writeItems style items

def writeMembers (style : Style) : List (String × Value) → List Char
  | [] => []
  | (key, item) :: members =>
    style.quoted key ++ [ ':'] ++ style.afterColon ++ write style item ++
      if members.isEmpty then [] else [ ','] ++ style.afterComma ++ writeMembers style members

end

end Style

end Fantastic.JsonGrammar
