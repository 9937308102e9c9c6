import Fantastic.Python.Runtime

/-!
# The text `json.dumps` writes

`json.dumps(value, default=str)` with its other defaults: everything outside printable
ASCII is escaped, items are separated by `", "` and a key from its item by `": "`. Raw
bytes go through `default`, that is `str`. A number is written as its `repr`, and `repr`
of an integer raises past the interpreter's digit limit.
-/

namespace Fantastic.Python.Json

/-- `sys.get_int_max_str_digits()`. -/
def maxStrDigits : Nat := 4300

def unicodeEscape (unit : Nat) : List Char :=
  [ '\\', 'u', Nat.digitChar (unit / 4096 % 16), Nat.digitChar (unit / 256 % 16),
    Nat.digitChar (unit / 16 % 16), Nat.digitChar (unit % 16)]

def escape (char : Char) : List Char :=
  if char = '\x22' then [ '\\', '\x22']
  else if char = '\\' then [ '\\', '\\']
  else if char = '\n' then [ '\\', 'n']
  else if char = '\r' then [ '\\', 'r']
  else if char = '\t' then [ '\\', 't']
  else if char = '\x0c' then [ '\\', 'f']
  else if char = '\x08' then [ '\\', 'b']
  else if ' ' ≤ char ∧ char ≤ '~' then [char]
  else if char.toNat < 0x10000 then unicodeEscape char.toNat
  else
    -- above the basic plane: a surrogate pair
    let rest := char.toNat - 0x10000
    unicodeEscape (0xd800 + rest / 1024) ++ unicodeEscape (0xdc00 + rest % 1024)

def quoted (text : String) : List Char :=
  [ '\x22'] ++ text.toList.flatMap escape ++ [ '\x22']

mutual

def dumps (runtime : Runtime) : Value → List Char
  | .null => "null".toList
  | .bool value => if value then "true".toList else "false".toList
  | .int value => (toString value).toList
  | .float value => (runtime.repr (.float value)).toList
  | .str text => quoted text
  | .bytes data => quoted (runtime.str (.bytes data))
  | .list items => [ '['] ++ dumpItems runtime items ++ [ ']']
  | .dict members => [ '\x7b'] ++ dumpMembers runtime members ++ [ '\x7d']

def dumpItems (runtime : Runtime) : List Value → List Char
  | [] => []
  | item :: items =>
    dumps runtime item ++ if items.isEmpty then [] else [ ',', ' '] ++ dumpItems runtime items

def dumpMembers (runtime : Runtime) : List (String × Value) → List Char
  | [] => []
  | (key, item) :: members =>
    quoted key ++ [ ':', ' '] ++ dumps runtime item ++
      if members.isEmpty then [] else [ ',', ' '] ++ dumpMembers runtime members

end

theorem dumps_str (runtime : Runtime) (text : String) :
    dumps runtime (.str text) = quoted text :=
  rfl

mutual

/-- Whether `dumps` writes the value out instead of raising. -/
def dumpable : Value → Bool
  | .int value => decide (value.natAbs < 10 ^ maxStrDigits)
  | .list items => dumpableItems items
  | .dict members => dumpableMembers members
  | _ => true

def dumpableItems : List Value → Bool
  | [] => true
  | item :: items => dumpable item && dumpableItems items

def dumpableMembers : List (String × Value) → Bool
  | [] => true
  | (_, item) :: members => dumpable item && dumpableMembers members

end

theorem escape_ne_nil (char : Char) : escape char ≠ [] := by
  unfold escape
  repeat' split
  all_goals simp [unicodeEscape]

theorem length_le_escaped (chars : List Char) : chars.length ≤ (chars.flatMap escape).length := by
  induction chars with
  | nil => simp
  | cons char rest ih =>
    have some := List.length_pos_of_ne_nil (escape_ne_nil char)
    rw [List.flatMap_cons, List.length_append, List.length_cons]
    omega

/-- Escaping only ever lengthens a text, and the quotes are two characters more. -/
theorem length_quoted (text : String) : text.length + 2 ≤ (quoted text).length := by
  have escaped := length_le_escaped text.toList
  rw [String.length_toList] at escaped
  simp only [quoted, List.length_append, List.length_singleton]
  omega

end Fantastic.Python.Json
