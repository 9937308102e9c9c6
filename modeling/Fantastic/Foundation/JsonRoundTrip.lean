import Fantastic.Foundation.JsonGrammar

/-!
# What is written is read back

For every style, the reader gives a written value back, from whatever text it stands in.
The fuel of the reader is the length of the text, and a text is always longer than the
value it spells is deep and wide.
-/

namespace Fantastic.JsonGrammar

/-! ### Blanks, escapes and strings -/

theorem skip_of_open {char : Char} (open' : isBlank char = false) (rest : List Char) :
    skip (char :: rest) = char :: rest := by
  simp [skip, open']

theorem skip_blanks {blanks : List Char} (blank : ∀ char ∈ blanks, isBlank char = true)
    (rest : List Char) : skip (blanks ++ rest) = skip rest :=
  List.dropWhile_append_of_pos blank

theorem readString_escaped (style : Style) (chars rest : List Char) {fuel : Nat}
    (enough : chars.length < fuel) :
    readString fuel (chars.flatMap style.escape ++ '\x22' :: rest) = some (chars, rest) := by
  induction chars generalizing fuel with
  | nil =>
    obtain ⟨fuel, rfl⟩ : ∃ less, fuel = less + 1 := ⟨fuel - 1, by omega⟩
    simp [readString]
  | cons char chars ih =>
    rw [List.length_cons] at enough
    obtain ⟨fuel, rfl⟩ : ∃ less, fuel = less + 1 := ⟨fuel - 1, by omega⟩
    rw [List.flatMap_cons, List.append_assoc, readString, if_neg (style.escape_opens _ _),
      style.escape_reads, Option.bind_eq_bind, Option.bind_some]
    simp only
    rw [ih (by omega)]
    rfl

theorem length_le_escaped (style : Style) (chars : List Char) :
    chars.length ≤ (chars.flatMap style.escape).length := by
  induction chars with
  | nil => simp
  | cons char rest ih =>
    have some : style.escape char ≠ [] := by
      intro nothing
      have reads := style.escape_reads char []
      rw [nothing] at reads
      cases reads
    have positive := List.length_pos_of_ne_nil some
    rw [List.flatMap_cons, List.length_append, List.length_cons]
    omega

/-- A quoted text is read back past its opening quote. -/
theorem readString_quoted (style : Style) (text : String) (rest : List Char) :
    ∃ inner, style.quoted text ++ rest = '\x22' :: inner ∧
      readString (inner.length + 1) inner = some (text.toList, rest) := by
  refine ⟨text.toList.flatMap style.escape ++ '\x22' :: rest, by simp [Style.quoted], ?_⟩
  apply readString_escaped
  have escaped := length_le_escaped style text.toList
  rw [List.length_append]
  omega

/-! ### Numbers -/

/-- The text after a number does not continue it. -/
def Ends (rest : List Char) : Prop :=
  ∀ char, rest.head? = some char → isNumeral char = false

theorem span_token {token rest : List Char}
    (numeral : ∀ char ∈ token, isNumeral char = true) (ends : Ends rest) :
    (token ++ rest).takeWhile isNumeral = token ∧ (token ++ rest).dropWhile isNumeral = rest := by
  rw [List.takeWhile_append_of_pos numeral, List.dropWhile_append_of_pos numeral]
  cases rest with
  | nil => simp
  | cons char rest =>
    have apart := ends char rfl
    simp [apart]

theorem toDigits_head {number : Nat} (positive : 0 < number) :
    (Nat.toDigits 10 number).head? ≠ some '0' := by
  induction number using Nat.strongRecOn with
  | ind number ih =>
    by_cases small : number < 10
    · rw [Nat.toDigits_of_lt_base small, List.head?_cons, ne_eq, Option.some.injEq,
        Nat.digitChar_eq_zero]
      omega
    · rw [Nat.toDigits_of_base_le (by decide) (by omega),
        List.head?_append_of_ne_nil _ Nat.toDigits_ne_nil]
      exact ih (number / 10) (by omega) (by omega)

theorem natural?_toDigits (number : Nat) : natural? (Nat.toDigits 10 number) = some number := by
  rw [natural?, if_pos, Nat.ofDigitChars_ten_toDigits]
  refine ⟨?_, Nat.toDigits_ne_nil, ?_⟩
  · rw [List.all_eq_true]
    intro char member
    exact Nat.isDigit_of_mem_toDigits (by decide) (by decide) member
  · intro zero
    cases Nat.eq_zero_or_pos number with
    | inl none => simp [none]
    | inr positive => exact absurd zero (toDigits_head positive)

theorem integer?_natural {digits : List Char} (plain : digits.head? ≠ some '-') :
    integer? digits = (natural? digits).map Int.ofNat := by
  unfold integer?
  split
  · simp at plain
  · rfl

theorem toDigits_plain (number : Nat) : (Nat.toDigits 10 number).head? ≠ some '-' := by
  intro minus
  have digit := Nat.isDigit_of_mem_toDigits (by decide) (by decide) (List.mem_of_head? minus)
  revert digit
  decide

def intText (number : Int) : List Char :=
  (toString number).toList

theorem intText_cases (number : Int) :
    (∃ size : Nat, number = size ∧ intText number = Nat.toDigits 10 size) ∨
      ∃ size : Nat, number = -(size : Int) ∧ intText number = '-' :: Nat.toDigits 10 size := by
  cases number with
  | ofNat size =>
    refine Or.inl ⟨size, rfl, ?_⟩
    change (Nat.repr size).toList = _
    rw [Nat.toList_repr]
  | negSucc size =>
    refine Or.inr ⟨size + 1, rfl, ?_⟩
    change ("-" ++ Nat.repr (size + 1)).toList = _
    rw [String.toList_append, Nat.toList_repr]
    rfl

theorem integer?_intText (number : Int) : integer? (intText number) = some number := by
  obtain ⟨size, same, text⟩ | ⟨size, same, text⟩ := intText_cases number
  · rw [text, same, integer?_natural (toDigits_plain size), natural?_toDigits]
    rfl
  · rw [text, same, integer?, natural?_toDigits]
    rfl

theorem isNumeral_of_isDigit {char : Char} (digit : char.isDigit = true) :
    isNumeral char = true := by
  simp [isNumeral, digit]

theorem intText_numeral (number : Int) : ∀ char ∈ intText number, isNumeral char = true := by
  intro char member
  obtain ⟨size, -, text⟩ | ⟨size, -, text⟩ := intText_cases number
  · rw [text] at member
    exact isNumeral_of_isDigit (Nat.isDigit_of_mem_toDigits (by decide) (by decide) member)
  · rw [text, List.mem_cons] at member
    cases member with
    | inl minus =>
      rw [minus]
      rfl
    | inr digit =>
      exact isNumeral_of_isDigit (Nat.isDigit_of_mem_toDigits (by decide) (by decide) digit)

theorem readNumber_int (floats : List Char → Option Dyadic) (number : Int) {rest : List Char}
    (ends : Ends rest) :
    readNumber floats (intText number ++ rest) = some (.int number, rest) := by
  obtain ⟨token, after⟩ := span_token (intText_numeral number) ends
  simp only [readNumber, token, after, integer?_intText]

/-- What a number may start with. -/
def startsNumber (char : Char) : Bool :=
  char.isDigit || char = '-'

theorem intText_starts (number : Int) :
    ∃ char more, intText number = char :: more ∧ startsNumber char = true := by
  obtain ⟨size, -, text⟩ | ⟨size, -, text⟩ := intText_cases number
  · cases digits : Nat.toDigits 10 size with
    | nil => exact absurd digits Nat.toDigits_ne_nil
    | cons char more =>
      refine ⟨char, more, text.trans digits, ?_⟩
      have digit : char.isDigit = true :=
        Nat.isDigit_of_mem_toDigits (by decide) (by decide) (digits ▸ List.mem_cons_self)
      simp [startsNumber, digit]
  · exact ⟨'-', _, text, rfl⟩

/-- A float whose spelling is a number of the grammar and reads back. -/
structure FloatReads (style : Style) (floats : List Char → Option Dyadic) (number : Dyadic) :
    Prop where
  starts : ∃ char more, style.float number = char :: more ∧ startsNumber char = true
  numeral : ∀ char ∈ style.float number, isNumeral char = true
  fractional : integer? (style.float number) = none
  reads : floats (style.float number) = some number

theorem FloatReads.readNumber {style : Style} {floats : List Char → Option Dyadic}
    {number : Dyadic} (float : FloatReads style floats number) {rest : List Char}
    (ends : Ends rest) :
    readNumber floats (style.float number ++ rest) = some (.float number, rest) := by
  obtain ⟨token, after⟩ := span_token float.numeral ends
  simp only [JsonGrammar.readNumber, token, after, float.fractional, float.reads, Option.map_some]

/-- A text that starts like a number is read as one. -/
theorem readValue_number (floats : List Char → Option Dyadic) {fuel : Nat} {char : Char}
    {more : List Char} (starts : startsNumber char = true) :
    readValue floats (fuel + 1) (char :: more) = readNumber floats (char :: more) := by
  have apart : ∀ other : Char, startsNumber other = false → char ≠ other := by
    intro other different same
    rw [same, different] at starts
    cases starts
  have blank : isBlank char = false := by
    simp only [isBlank, Bool.or_eq_false_iff, decide_eq_false_iff_not]
    exact ⟨⟨⟨apart _ rfl, apart _ rfl⟩, apart _ rfl⟩, apart _ rfl⟩
  rw [readValue, skip_of_open blank]
  simp only [if_neg (apart _ (show startsNumber '\x22' = false from rfl)),
    if_neg (apart _ (show startsNumber '[' = false from rfl)),
    if_neg (apart _ (show startsNumber '\x7b' = false from rfl)),
    if_neg (apart _ (show startsNumber 'n' = false from rfl)),
    if_neg (apart _ (show startsNumber 't' = false from rfl)),
    if_neg (apart _ (show startsNumber 'f' = false from rfl))]

/-! ### Values -/

section Values

variable (style : Style) (floats : List Char → Option Dyadic)

mutual

/-- Values that are JSON: no raw bytes, and floats the language spells and reads back. -/
def Writable : Value → Prop
  | .float number => FloatReads style floats number
  | .bytes _ => False
  | .list items => WritableItems items
  | .dict members => WritableMembers members
  | _ => True

def WritableItems : List Value → Prop
  | [] => True
  | item :: items => Writable item ∧ WritableItems items

def WritableMembers : List (String × Value) → Prop
  | [] => True
  | (_, item) :: members => Writable item ∧ WritableMembers members

end

end Values

mutual

/-- The fuel a value takes. -/
def cost : Value → Nat
  | .list items => 1 + costItems items
  | .dict members => 1 + costMembers members
  | _ => 1

def costItems : List Value → Nat
  | [] => 0
  | item :: items => 1 + cost item + costItems items

def costMembers : List (String × Value) → Nat
  | [] => 0
  | (_, item) :: members => 1 + cost item + costMembers members

end

variable {style : Style} {floats : List Char → Option Dyadic}

/-- A written value starts with a character that is neither a blank nor a bracket that
would close the array before it. -/
theorem write_opens {value : Value} (writable : Writable style floats value) :
    ∃ char more, style.write value = char :: more ∧ isBlank char = false ∧ char ≠ ']' := by
  have number : ∀ char, startsNumber char = true → isBlank char = false ∧ char ≠ ']' := by
    intro char starts
    have apart : ∀ other : Char, startsNumber other = false → char ≠ other := by
      intro other different same
      rw [same, different] at starts
      cases starts
    simp only [isBlank, Bool.or_eq_false_iff, decide_eq_false_iff_not]
    exact ⟨⟨⟨⟨apart _ rfl, apart _ rfl⟩, apart _ rfl⟩, apart _ rfl⟩, apart _ rfl⟩
  cases value with
  | null => exact ⟨'n', _, rfl, rfl, by decide⟩
  | bool value => cases value <;> exact ⟨_, _, rfl, rfl, by decide⟩
  | int value =>
    obtain ⟨char, more, text, starts⟩ := intText_starts value
    exact ⟨char, more, text, number char starts⟩
  | float value =>
    obtain ⟨char, more, text, starts⟩ := FloatReads.starts writable
    exact ⟨char, more, text, number char starts⟩
  | str text => exact ⟨'\x22', _, rfl, rfl, by decide⟩
  | bytes data => exact absurd writable id
  | list items => exact ⟨'[', _, rfl, rfl, by decide⟩
  | dict members => exact ⟨'\x7b', _, rfl, rfl, by decide⟩

/-- What may follow an item: the next separator or the closing bracket. -/
theorem ends_cons {char : Char} (apart : isNumeral char = false) (rest : List Char) :
    Ends (char :: rest) := by
  intro other head
  cases head
  exact apart

theorem readValue_blanks {blanks : List Char} (blank : ∀ char ∈ blanks, isBlank char = true)
    (fuel : Nat) (chars : List Char) :
    readValue floats fuel (blanks ++ chars) = readValue floats fuel chars := by
  cases fuel with
  | zero => rfl
  | succ fuel => rw [readValue, readValue, skip_blanks blank]

theorem readItems_blanks {blanks : List Char} (blank : ∀ char ∈ blanks, isBlank char = true)
    (fuel : Nat) (chars : List Char) :
    readItems floats fuel (blanks ++ chars) = readItems floats fuel chars := by
  cases fuel with
  | zero => rfl
  | succ fuel => rw [readItems, readItems, readValue_blanks blank]

theorem readMembers_blanks {blanks : List Char} (blank : ∀ char ∈ blanks, isBlank char = true)
    (fuel : Nat) (chars : List Char) :
    readMembers floats fuel (blanks ++ chars) = readMembers floats fuel chars := by
  cases fuel with
  | zero => rfl
  | succ fuel => rw [readMembers, readMembers, skip_blanks blank]

mutual

/-- A written value is read back, whatever follows it. -/
theorem readValue_write (value : Value) (writable : Writable style floats value) {fuel : Nat}
    (enough : cost value ≤ fuel) {rest : List Char} (ends : Ends rest) :
    readValue floats fuel (style.write value ++ rest) = some (value, rest) := by
  have positive : 0 < cost value := by
    cases value <;> simp only [cost] <;> omega
  obtain ⟨fuel, rfl⟩ : ∃ less, fuel = less + 1 := ⟨fuel - 1, by omega⟩
  match value, writable, enough with
  | .null, _, _ => rfl
  | .bool true, _, _ => rfl
  | .bool false, _, _ => rfl
  | .int number, _, _ =>
    obtain ⟨char, more, text, starts⟩ := intText_starts number
    have read := readNumber_int floats number ends
    change readValue floats (fuel + 1) (intText number ++ rest) = _
    rw [text, List.cons_append] at read ⊢
    rw [readValue_number floats starts, read]
  | .float number, writable, _ =>
    obtain ⟨char, more, text, starts⟩ := FloatReads.starts writable
    have read := FloatReads.readNumber writable ends
    rw [Style.write]
    rw [text, List.cons_append] at read ⊢
    rw [readValue_number floats starts, read]
  | .str text, _, _ =>
    obtain ⟨inner, opened, read⟩ := readString_quoted style text rest
    rw [Style.write, opened, readValue, skip_of_open rfl]
    simp only [if_true, read, Option.map_some, String.ofList_toList]
  | .list [], _, _ => rfl
  | .list (item :: items), writable, enough =>
    obtain ⟨char, more, text, open', apart⟩ := write_opens writable.1
    have opened : ∃ after, style.writeItems (item :: items) ++ ']' :: rest = char :: after := by
      rw [Style.writeItems, text]
      exact ⟨_, rfl⟩
    obtain ⟨after, opened⟩ := opened
    have read := readItems_write (item :: items) (by simp) writable
      (show costItems (item :: items) ≤ fuel by simp only [cost] at enough; omega) rest
    rw [Style.write, List.append_assoc, List.append_assoc, List.singleton_append, readValue,
      skip_of_open rfl]
    simp only [List.singleton_append] at read ⊢
    rw [opened] at read ⊢
    have goes : (skip (char :: after)).head? ≠ some ']' := by
      rw [skip_of_open open', List.head?_cons, ne_eq, Option.some.injEq]
      exact apart
    simp only [if_neg (show ¬ '[' = '\x22' by decide), if_true, if_neg goes, read,
      Option.map_some]
  | .dict [], _, _ => rfl
  | .dict ((key, item) :: members), writable, enough =>
    have read := readMembers_write ((key, item) :: members) (by simp) writable
      (show costMembers ((key, item) :: members) ≤ fuel by simp only [cost] at enough; omega) rest
    have opened : ∃ after, style.writeMembers ((key, item) :: members) ++ '\x7d' :: rest =
        '\x22' :: after := by
      rw [Style.writeMembers, Style.quoted]
      exact ⟨_, rfl⟩
    obtain ⟨after, opened⟩ := opened
    rw [Style.write, List.append_assoc, List.append_assoc, List.singleton_append, readValue,
      skip_of_open rfl]
    simp only [List.singleton_append] at read ⊢
    rw [opened] at read ⊢
    have goes : (skip ('\x22' :: after)).head? ≠ some '\x7d' := by
      rw [skip_of_open rfl]
      simp
    simp only [if_neg (show ¬ '\x7b' = '\x22' by decide),
      if_neg (show ¬ '\x7b' = '[' by decide), if_true, if_neg goes, read, Option.map_some]

theorem readItems_write (items : List Value) (some' : items ≠ [])
    (writable : WritableItems style floats items) {fuel : Nat} (enough : costItems items ≤ fuel)
    (rest : List Char) :
    readItems floats fuel (style.writeItems items ++ ']' :: rest) = some (items, rest) := by
  match items, some', writable, enough with
  | [item], _, writable, enough =>
    simp only [costItems] at enough
    obtain ⟨fuel, rfl⟩ : ∃ less, fuel = less + 1 := ⟨fuel - 1, by omega⟩
    have read := readValue_write item writable.1 (show cost item ≤ fuel by omega)
      (ends_cons (show isNumeral ']' = false from rfl) rest)
    simp only [Style.writeItems, List.isEmpty_nil, if_true, List.append_nil, readItems, read,
      Option.bind_eq_bind, Option.bind_some, skip_of_open (show isBlank ']' = false from rfl)]
    rfl
  | item :: next :: items, _, writable, enough =>
    simp only [costItems] at enough
    obtain ⟨fuel, rfl⟩ : ∃ less, fuel = less + 1 := ⟨fuel - 1, by omega⟩
    have more := readItems_write (next :: items) (by simp) writable.2
      (show costItems (next :: items) ≤ fuel by simp only [costItems]; omega) rest
    have read := readValue_write item writable.1 (show cost item ≤ fuel by omega)
      (ends_cons (show isNumeral ',' = false from rfl)
        (style.afterComma ++ (style.writeItems (next :: items) ++ ']' :: rest)))
    rw [Style.writeItems]
    simp only [List.isEmpty_cons, Bool.false_eq_true, if_false, List.append_assoc,
      List.cons_append, List.nil_append, readItems, read, Option.bind_eq_bind,
      Option.bind_some, skip_of_open (show isBlank ',' = false from rfl),
      readItems_blanks style.afterComma_blank, more]
    rfl

theorem readMembers_write (members : List (String × Value)) (some' : members ≠ [])
    (writable : WritableMembers style floats members) {fuel : Nat}
    (enough : costMembers members ≤ fuel) (rest : List Char) :
    readMembers floats fuel (style.writeMembers members ++ '\x7d' :: rest) =
      some (members, rest) := by
  match members, some', writable, enough with
  | [(key, item)], _, writable, enough =>
    simp only [costMembers] at enough
    obtain ⟨fuel, rfl⟩ : ∃ less, fuel = less + 1 := ⟨fuel - 1, by omega⟩
    have read := readValue_write item writable.1 (show cost item ≤ fuel by omega)
      (ends_cons (show isNumeral '\x7d' = false from rfl) rest)
    obtain ⟨inner, opened, keyRead⟩ := readString_quoted style key
      (':' :: (style.afterColon ++ (style.write item ++ '\x7d' :: rest)))
    rw [Style.writeMembers]
    simp only [List.isEmpty_nil, if_true, List.append_nil, List.append_assoc,
      List.cons_append, List.nil_append, opened, readMembers, skip_of_open (show isBlank '\x22' = false from rfl),
      keyRead, Option.bind_eq_bind, Option.bind_some,
      skip_of_open (show isBlank ':' = false from rfl), readValue_blanks style.afterColon_blank,
      read, skip_of_open (show isBlank '\x7d' = false from rfl), String.ofList_toList]
    rfl
  | (key, item) :: next :: members, _, writable, enough =>
    simp only [costMembers] at enough
    obtain ⟨fuel, rfl⟩ : ∃ less, fuel = less + 1 := ⟨fuel - 1, by omega⟩
    have more := readMembers_write (next :: members) (by simp) writable.2
      (show costMembers (next :: members) ≤ fuel by simp only [costMembers]; omega) rest
    have read := readValue_write item writable.1 (show cost item ≤ fuel by omega)
      (ends_cons (show isNumeral ',' = false from rfl)
        (style.afterComma ++ (style.writeMembers (next :: members) ++ '\x7d' :: rest)))
    obtain ⟨inner, opened, keyRead⟩ := readString_quoted style key
      (':' :: (style.afterColon ++ (style.write item ++
        ',' :: (style.afterComma ++ (style.writeMembers (next :: members) ++ '\x7d' :: rest)))))
    rw [Style.writeMembers]
    simp only [List.isEmpty_cons, Bool.false_eq_true, if_false, List.append_assoc,
      List.cons_append, List.nil_append, opened, readMembers,
      skip_of_open (show isBlank '\x22' = false from rfl), keyRead, Option.bind_eq_bind,
      Option.bind_some, skip_of_open (show isBlank ':' = false from rfl),
      readValue_blanks style.afterColon_blank, read,
      skip_of_open (show isBlank ',' = false from rfl),
      readMembers_blanks style.afterComma_blank, more, String.ofList_toList]
    rfl

end

mutual

/-- A text is at least as long as its value takes fuel. -/
theorem cost_le_write (value : Value) (writable : Writable style floats value) :
    cost value ≤ (style.write value).length := by
  match value, writable with
  | .list [], _ => simp [cost, costItems, Style.write, Style.writeItems]
  | .list (item :: items), writable =>
    have inner := costItems_le_write (item :: items) (by simp) writable
    simp only [cost, Style.write, List.length_append, List.length_singleton]
    omega
  | .dict [], _ => simp [cost, costMembers, Style.write, Style.writeMembers]
  | .dict (member :: members), writable =>
    have inner := costMembers_le_write (member :: members) (by simp) writable
    simp only [cost, Style.write, List.length_append, List.length_singleton]
    omega
  | .null, writable | .bool _, writable | .int _, writable | .float _, writable
  | .str _, writable =>
    obtain ⟨char, more, text, _, _⟩ := write_opens writable
    rw [text]
    simp [cost]

theorem costItems_le_write (items : List Value) (some' : items ≠ [])
    (writable : WritableItems style floats items) :
    costItems items ≤ (style.writeItems items).length + 1 := by
  match items, some', writable with
  | [item], _, writable =>
    have here := cost_le_write item writable.1
    simp only [costItems, Style.writeItems, List.isEmpty_nil, if_true, List.append_nil]
    omega
  | item :: next :: items, _, writable =>
    have here := cost_le_write item writable.1
    have more := costItems_le_write (next :: items) (by simp) writable.2
    rw [costItems, Style.writeItems]
    simp only [List.isEmpty_cons, Bool.false_eq_true, if_false, List.length_append,
      List.length_singleton]
    omega

theorem costMembers_le_write (members : List (String × Value)) (some' : members ≠ [])
    (writable : WritableMembers style floats members) :
    costMembers members ≤ (style.writeMembers members).length + 1 := by
  match members, some', writable with
  | [(key, item)], _, writable =>
    have here := cost_le_write item writable.1
    simp only [costMembers, Style.writeMembers, List.isEmpty_nil, if_true, List.append_nil,
      List.length_append, List.length_singleton]
    omega
  | (key, item) :: next :: members, _, writable =>
    have here := cost_le_write item writable.1
    have more := costMembers_le_write (next :: members) (by simp) writable.2
    rw [costMembers, Style.writeMembers]
    simp only [List.isEmpty_cons, Bool.false_eq_true, if_false, List.length_append,
      List.length_singleton]
    omega

end

/-- What a style writes for a JSON value is read as that value. -/
theorem read_write {value : Value} (writable : Writable style floats value) :
    read floats (style.write value) = some value := by
  have fits := cost_le_write value writable
  have whole := readValue_write value writable
    (show cost value ≤ (style.write value).length + 1 by omega)
    (show Ends [] by intro char head; cases head)
  rw [List.append_nil] at whole
  rw [read, whole]
  rfl

/-! ### Distinct keys -/

theorem mapOf_entries (dict : Dict) : mapOf dict.entries = dict :=
  OrderedDict.empty_update dict

mutual

theorem toNative_of_distinct : ∀ value : Value, value.Distinct → toNative value = value
  | .null, _ => rfl
  | .bool _, _ => rfl
  | .int _, _ => rfl
  | .float _, _ => rfl
  | .str _, _ => rfl
  | .bytes _, _ => rfl
  | .list items, distinct => congrArg Value.list (toNativeItems_of_distinct items distinct)
  | .dict members, distinct => by
      rw [toNative, toNativeMembers_of_distinct members distinct.2]
      exact congrArg (fun dict : Dict => Value.dict dict.entries)
        (mapOf_entries { entries := members, nodup := distinct.1 })

theorem toNativeItems_of_distinct :
    ∀ items, Value.DistinctItems items → toNativeItems items = items
  | [], _ => rfl
  | item :: items, distinct => by
      rw [toNativeItems, toNative_of_distinct item distinct.1,
        toNativeItems_of_distinct items distinct.2]

theorem toNativeMembers_of_distinct :
    ∀ members, Value.DistinctMembers members → toNativeMembers members = members
  | [], _ => rfl
  | (key, item) :: members, distinct => by
      rw [toNativeMembers, toNative_of_distinct item distinct.1,
        toNativeMembers_of_distinct members distinct.2]

end

/-! ### Escapes -/

/-- `\uXXXX`. -/
def hexEscape (unit : Nat) : List Char :=
  [ '\\', 'u', Nat.digitChar (unit / 4096 % 16), Nat.digitChar (unit / 256 % 16),
    Nat.digitChar (unit / 16 % 16), Nat.digitChar (unit % 16)]

theorem hexValue_digitChar {digit : Nat} (small : digit < 16) :
    hexValue (Nat.digitChar digit) = some digit := by
  revert digit
  decide

theorem readUnit_hex {unit : Nat} (small : unit < 0x10000) (rest : List Char) :
    readUnit (Nat.digitChar (unit / 4096 % 16) :: Nat.digitChar (unit / 256 % 16) ::
      Nat.digitChar (unit / 16 % 16) :: Nat.digitChar (unit % 16) :: rest) = some (unit, rest) := by
  simp only [readUnit, hexValue_digitChar (Nat.mod_lt _ (show 16 > 0 by decide)),
    Option.bind_eq_bind, Option.bind_some]
  have sum : unit / 4096 % 16 * 4096 + unit / 256 % 16 * 256 + unit / 16 % 16 * 16 + unit % 16 =
      unit := by
    omega
  rw [sum]
  rfl

theorem readChar_u (rest : List Char) : readChar ('\\' :: 'u' :: rest) = readUnicode rest := rfl

theorem readChar_hexEscape (char : Char) (basic : char.toNat < 0x10000) (rest : List Char) :
    readChar (hexEscape char.toNat ++ rest) = some (char, rest) := by
  have scalar : char.toNat < 0xd800 ∨ 0xdfff < char.toNat := by
    cases char.valid with
    | inl low => exact Or.inl low
    | inr high => exact Or.inr high.1
  simp only [hexEscape, List.cons_append, List.nil_append, readChar_u, readUnicode,
    readUnit_hex basic, Option.bind_eq_bind, Option.bind_some, if_pos scalar, Char.ofNat_toNat]
  rfl

/-- The escapes of a serializer that keeps everything it may: `JSON.stringify` and
`serde_json`. -/
def plainEscape (char : Char) : List Char :=
  if char = '\x22' then [ '\\', '\x22']
  else if char = '\\' then [ '\\', '\\']
  else if char = '\n' then [ '\\', 'n']
  else if char = '\r' then [ '\\', 'r']
  else if char = '\t' then [ '\\', 't']
  else if char = '\x0c' then [ '\\', 'f']
  else if char = '\x08' then [ '\\', 'b']
  else if char.toNat < 0x20 then hexEscape char.toNat
  else [char]

theorem readChar_plainEscape (char : Char) (rest : List Char) :
    readChar (plainEscape char ++ rest) = some (char, rest) := by
  unfold plainEscape
  split
  case isTrue same => rw [same]; rfl
  split
  case isTrue same => rw [same]; rfl
  split
  case isTrue same => rw [same]; rfl
  split
  case isTrue same => rw [same]; rfl
  split
  case isTrue same => rw [same]; rfl
  split
  case isTrue same => rw [same]; rfl
  split
  case isTrue same => rw [same]; rfl
  split
  case isTrue control => exact readChar_hexEscape char (by omega) rest
  case isFalse notSlash _ _ _ _ _ printable =>
    simp only [List.singleton_append, readChar, if_neg notSlash, if_neg printable]

theorem plainEscape_opens (char : Char) (rest : List Char) :
    (plainEscape char ++ rest).head? ≠ some '\x22' := by
  unfold plainEscape
  split
  · simp
  case isFalse notQuote =>
    repeat' split
    all_goals simp [hexEscape, notQuote]

end Fantastic.JsonGrammar
