import Fantastic.Swift.JsonReading

/-!
# The JSON writers

`serialize` and `serializePretty` of `JSONCodable.swift`. The two differ in their layout: the
blanks before an item, before a closing bracket and after a colon. What either writes is a text of
RFC 8259 that spells the value, so the reader gives the value back.
-/

namespace Fantastic.Swift.JsonBytes

open JsonSyntax hiding isBlank
open JsonGrammar (isBlank isNumeral integer? intText plainEscape hexEscape)

/-- `"\(v)"` on doubles: for a finite one a text with a point or an exponent that reads back. -/
structure Spelling {Double : Type} (doubles : Doubles Double) where
  finite : Double → Bool
  text : Double → List Char
  spelled : ∀ number, finite number = true → NumberText (text number)
  fractional : ∀ number, finite number = true → integer? (text number) = none
  reads : ∀ number, finite number = true → doubles.read (text number) = some number

/-- The blanks at each level; the newline behind a comma or an opening bracket stands before the
item it comes to. -/
structure Layout where
  beforeItem : Nat → List Char
  beforeClose : Nat → List Char
  afterColon : List Char
  item_blank : ∀ level, (beforeItem level).all isBlank = true
  close_blank : ∀ level, (beforeClose level).all isBlank = true
  colon_blank : afterColon.all isBlank = true

def compact : Layout where
  beforeItem := fun _ => []
  beforeClose := fun _ => []
  afterColon := []
  item_blank := fun _ => rfl
  close_blank := fun _ => rfl
  colon_blank := rfl

theorem pad_blank (count : Nat) : ('\n' :: List.replicate count ' ').all isBlank = true := by
  rw [List.all_cons, List.all_replicate]
  split <;> rfl

def pretty (indent : Nat) : Layout where
  beforeItem := fun level => '\n' :: List.replicate ((level + 1) * indent) ' '
  beforeClose := fun level => '\n' :: List.replicate (level * indent) ' '
  afterColon := [' ']
  item_blank := fun _ => pad_blank _
  close_blank := fun _ => pad_blank _
  colon_blank := rfl

/-- `writeEscapedString`. -/
def writeEscapedString (text : String) : List Char :=
  '\x22' :: (text.toList.flatMap plainEscape ++ ['\x22'])

section Writing

variable {Double : Type} {doubles : Doubles Double} (spelling : Spelling doubles)

def writeNumber : Numeral Double → List Char
  | .integer number => intText number
  | .double number => if spelling.finite number then spelling.text number else ['n', 'u', 'l', 'l']

/-- `writeTo` and `writeToPretty`. -/
def write (layout : Layout) (level : Nat) : Json Double → List Char
  | .null => ['n', 'u', 'l', 'l']
  | .bool true => ['t', 'r', 'u', 'e']
  | .bool false => ['f', 'a', 'l', 's', 'e']
  | .number number => writeNumber spelling number
  | .string text => writeEscapedString text
  | .array [] => ['[', ']']
  | .array items =>
    '[' :: ([','].intercalate (items.map fun item =>
      layout.beforeItem level ++ write layout (level + 1) item) ++
        (layout.beforeClose level ++ [']']))
  | .object [] => ['\x7b', '\x7d']
  | .object members =>
    '\x7b' :: ([','].intercalate (members.map fun entry =>
      layout.beforeItem level ++ (writeEscapedString entry.1 ++ ':' ::
        (layout.afterColon ++ write layout (level + 1) entry.2))) ++
          (layout.beforeClose level ++ ['\x7d']))
termination_by tree => sizeOf tree
decreasing_by
  · exact Tree.smaller_item ‹_›
  · exact Tree.smaller_entry ‹_›

def serialize (value : Json Double) : List Char :=
  write spelling compact 0 value

def serializePretty (indent : Nat) (value : Json Double) : List Char :=
  write spelling (pretty indent) 0 value

end Writing

/-! ### What is written is a text -/

section Written

variable {Double : Type} {doubles : Doubles Double} {plain : Char → Prop}

theorem hex4_append {bytes rest : List UInt8} {unit : Nat} (read : hex4 bytes = some (unit, rest))
    (more : List UInt8) : hex4 (bytes ++ more) = some (unit, rest ++ more) := by
  unfold hex4 at read
  split at read
  · simp only [Option.bind_eq_bind, Option.bind_eq_some_iff] at read
    obtain ⟨a, first, b, second, c, third, d, fourth, same⟩ := read
    cases same
    simp [hex4, first, second, third, fourth]
  · cases read

theorem hex4_control : ∀ code < 0x20,
    encode (hexEscape code) = 0x5C :: 0x75 :: encode ((hexEscape code).drop 2) ∧
      hex4 (encode ((hexEscape code).drop 2)) = some (code, []) := by
  decide

/-- One character of a string, escaped or as it is. -/
theorem escape_written {char : Char} {bytes rest : List UInt8} {text : List Char}
    (more : Quoted (rfc doubles).plain bytes text rest) :
    Quoted (rfc doubles).plain (encode (plainEscape char) ++ bytes) (char :: text) rest := by
  unfold plainEscape
  split
  case isTrue same =>
    subst same
    exact .escape (@Escape.short 0x22 '\x22' rfl _) more
  case isFalse quote =>
    split
    case isTrue same =>
      subst same
      exact .escape (@Escape.short 0x5C '\\' rfl _) more
    case isFalse slash =>
      split
      case isTrue same =>
        subst same
        exact .escape (@Escape.short 0x6E '\n' rfl _) more
      split
      case isTrue same =>
        subst same
        exact .escape (@Escape.short 0x72 '\r' rfl _) more
      split
      case isTrue same =>
        subst same
        exact .escape (@Escape.short 0x74 '\t' rfl _) more
      split
      case isTrue same =>
        subst same
        exact .escape (@Escape.short 0x66 '\x0c' rfl _) more
      split
      case isTrue same =>
        subst same
        exact .escape (@Escape.short 0x62 '\x08' rfl _) more
      split
      case isTrue control =>
        obtain ⟨shape, read⟩ := hex4_control _ control
        have escaped := Escape.unit (hex4_append read bytes) (.inl (by omega))
        rw [Char.ofNat_toNat] at escaped
        rw [shape]
        exact .escape escaped more
      case isFalse printable =>
        rw [encode, List.flatMap_singleton]
        exact .plain (Nat.le_of_not_lt printable) ⟨quote, slash⟩ more

theorem string_written (text : String) (rest : List UInt8) :
    ∃ inside, encode (writeEscapedString text) ++ rest = 0x22 :: inside ∧
      Quoted (rfc doubles).plain inside text.toList rest := by
  have body : ∀ chars : List Char, Quoted (rfc doubles).plain
      (encode (chars.flatMap plainEscape) ++ 0x22 :: rest) chars rest := by
    intro chars
    induction chars with
    | nil => exact .close rest
    | cons char chars ih =>
      rw [List.flatMap_cons, encode_append, List.append_assoc]
      exact escape_written ih
  refine ⟨_, ?_, body text.toList⟩
  rw [writeEscapedString, encode_cons, encode_append, List.append_assoc, List.append_assoc]
  rfl

theorem blanks_written {chars : List Char} (blank : chars.all isBlank = true)
    (rest : List UInt8) : Blanks (encode chars ++ rest) rest := by
  refine ⟨encode chars, rfl, ?_⟩
  intro byte member
  obtain ⟨char, listed, inside⟩ := List.mem_flatMap.mp member
  have here := List.all_eq_true.mp blank char listed
  simp only [isBlank, Bool.or_eq_true, decide_eq_true_eq] at here
  rcases here with ((rfl | rfl) | rfl) | rfl
  all_goals
    have same : byte = _ := List.mem_singleton.mp inside
    subst same
    decide

theorem items_written {rules : Rules (Numeral Double)} {before : List Char}
    {text : Json Double → List Char} (blank : before.all isBlank = true)
    {items : List (Json Double)} (some' : items ≠ [])
    (each : ∀ item ∈ items, ∀ rest, Reads rules .value (encode (text item) ++ rest) item rest)
    {tail rest : List UInt8} (after : Blanks tail rest) :
    Reads rules .items
      (encode ([','].intercalate (items.map fun item => before ++ text item)) ++ tail)
      (.array items) rest := by
  induction items with
  | nil => exact absurd rfl some'
  | cons item items ih =>
    have here := each item List.mem_cons_self
    cases items with
    | nil =>
      rw [List.map_singleton, List.intercalate_singleton, encode_append, List.append_assoc]
      exact .lastItem (blanks_written blank _) (here _) after
    | cons next items =>
      have later := ih (List.cons_ne_nil _ _)
        fun other member => each other (List.mem_cons_of_mem _ member)
      have others : (next :: items).map (fun item => before ++ text item) ≠ [] := by simp
      rw [List.map_cons, List.intercalate_cons_of_ne_nil others, encode_append, encode_append,
        encode_append]
      simp only [List.append_assoc]
      exact .item (blanks_written blank _) (here _) ⟨[], rfl, by simp⟩ later

theorem members_written {before colon : List Char} {text : Json Double → List Char}
    (blank : before.all isBlank = true) (gap : colon.all isBlank = true)
    {members : List (String × Json Double)} (some' : members ≠ [])
    (each : ∀ entry ∈ members, ∀ rest,
      Reads (rfc doubles) .value (encode (text entry.2) ++ rest) entry.2 rest)
    {tail rest : List UInt8} (after : Blanks tail rest) :
    Reads (rfc doubles) .members
      (encode ([','].intercalate (members.map fun entry =>
        before ++ (writeEscapedString entry.1 ++ ':' :: (colon ++ text entry.2)))) ++ tail)
      (.object members) rest := by
  induction members with
  | nil => exact absurd rfl some'
  | cons entry members ih =>
    obtain ⟨key, item⟩ := entry
    have here := each (key, item) List.mem_cons_self
    have none (rest : List UInt8) : Blanks rest rest := ⟨[], rfl, by simp⟩
    cases members with
    | nil =>
      obtain ⟨inside, shape, quoted⟩ := @string_written _ doubles key
        (0x3A :: (encode colon ++ (encode (text item) ++ tail)))
      have read := Reads.lastMember (blanks_written blank _) quoted (none _)
        (blanks_written gap _) (here _) after
      rw [← shape, String.ofList_toList] at read
      rw [List.map_singleton, List.intercalate_singleton, encode_append, encode_append,
        encode_cons, encode_append]
      simp only [List.append_assoc]
      exact read
    | cons next members =>
      have later := ih (List.cons_ne_nil _ _)
        fun other member => each other (List.mem_cons_of_mem _ member)
      generalize others_eq : (next :: members).map (fun entry =>
        before ++ (writeEscapedString entry.1 ++ ':' :: (colon ++ text entry.2))) = others at later
      have some' : others ≠ [] := by
        rw [← others_eq]
        simp
      obtain ⟨inside, shape, quoted⟩ := @string_written _ doubles key (0x3A :: (encode colon ++
        (encode (text item) ++ (0x2C :: (encode ([','].intercalate others) ++ tail)))))
      have read := Reads.member (blanks_written blank _) quoted (none _)
        (blanks_written gap _) (here _) (none _) later
      rw [← shape, String.ofList_toList] at read
      rw [List.map_cons, others_eq, List.intercalate_cons_of_ne_nil some']
      simp only [encode_append, encode_cons, List.append_assoc]
      exact read

end Written

/-! ### The round trip -/

section RoundTrip

variable {Double : Type} {doubles : Doubles Double} (spelling : Spelling doubles)
  (canon : String → String)

/-- An integer of 64 bits, or a finite double. -/
def Numeral.Finite : Numeral Double → Prop
  | .integer number => InInt64 number
  | .double number => spelling.finite number = true

/-- A value whose doubles are finite. The keys of a dictionary have different canonical forms. -/
def Finite : Json Double → Prop
  | .number number => number.Finite spelling
  | .array items => ∀ item ∈ items, Finite item
  | .object members =>
    ((members.map Prod.fst).map canon).Nodup ∧ ∀ entry ∈ members, Finite entry.2
  | _ => True
termination_by tree => sizeOf tree
decreasing_by
  · exact Tree.smaller_item ‹_›
  · exact Tree.smaller_entry ‹_›

variable {spelling canon}

theorem number_written {number : Numeral Double} (finite : number.Finite spelling) :
    RfcNumber doubles (writeNumber spelling number) number := by
  cases number with
  | integer number => exact .integer (JsonGrammar.integer?_intText number) finite
  | double number =>
    change spelling.finite number = true at finite
    rw [writeNumber, if_pos finite]
    refine .double (spelling.spelled number finite) ?_ (spelling.reads number finite)
    intro integer read
    rw [spelling.fractional number finite] at read
    cases read

theorem write_reads (layout : Layout) {value : Json Double} (finite : Finite spelling canon value) :
    ∀ level rest, Reads (rfc doubles) .value (encode (write spelling layout level value) ++ rest)
      value rest := by
  induction value using Tree.induct with
  | null =>
    intro level rest
    rw [write]
    exact .null rest
  | bool value =>
    intro level rest
    cases value with
    | true =>
      rw [write]
      exact .true rest
    | false =>
      rw [write]
      exact .false rest
  | number number =>
    intro level rest
    rw [Finite] at finite
    rw [write]
    exact .number (number_written finite) rest
  | string text =>
    intro level rest
    obtain ⟨inside, shape, quoted⟩ := @string_written _ doubles text rest
    have read := Reads.string quoted
    rw [String.ofList_toList] at read
    rw [write, shape]
    exact read
  | array items ih =>
    intro level rest
    rw [Finite] at finite
    cases items with
    | nil =>
      rw [write]
      exact .noItems ⟨[], rfl, by simp⟩
    | cons item items =>
      have inside := items_written (layout.item_blank level) (List.cons_ne_nil item items)
        (fun item member => ih item member (finite item member) (level + 1))
        (blanks_written (layout.close_blank level) (0x5D :: rest))
      rw [write, encode_cons, encode_append, encode_append]
      simp only [List.append_assoc]
      exact .array inside
      simp
  | object members ih =>
    intro level rest
    rw [Finite] at finite
    cases members with
    | nil =>
      rw [write]
      exact .noMembers ⟨[], rfl, by simp⟩
    | cons entry members =>
      have inside := members_written (layout.item_blank level) layout.colon_blank
        (List.cons_ne_nil entry members)
        (fun entry member => ih entry member (finite.2 entry member) (level + 1))
        (blanks_written (layout.close_blank level) (0x7D :: rest))
      rw [write, encode_cons, encode_append, encode_append]
      simp only [List.append_assoc]
      exact .object inside
      simp

theorem merged_finite {value : Json Double} (finite : Finite spelling canon value) :
    value.merged canon = value := by
  induction value using Tree.induct with
  | null => simp [Tree.merged]
  | bool value => simp [Tree.merged]
  | number number => simp [Tree.merged]
  | string text => simp [Tree.merged]
  | array items ih =>
    rw [Finite] at finite
    have same : items.map (Tree.merged canon) = items.map id :=
      List.map_congr_left fun item member => ih item member (finite item member)
    rw [Tree.merged, same, List.map_id]
  | object members ih =>
    rw [Finite] at finite
    have same : members.map (Prod.map id (Tree.merged canon)) = members.map id :=
      List.map_congr_left fun entry member =>
        Prod.ext rfl (ih entry member (finite.2 entry member))
    rw [Tree.merged_object, keep_of_nodup canon finite.1, same, List.map_id]

theorem parse_write (layout : Layout) {value : Json Double}
    (finite : Finite spelling canon value) :
    parse doubles canon (encode (write spelling layout 0 value)) = .ok value := by
  have read := write_reads layout finite 0 []
  rw [List.append_nil] at read
  refine parse_iff.mpr ⟨value, text_loose ⟨_, [], ⟨[], rfl, by simp⟩, read, [], rfl, by simp⟩, ?_⟩
  exact (merged_finite finite).symm

end RoundTrip

/-! ### Blanks outside strings -/

/-- A text without the blanks outside its strings; inside one, a backslash takes the next character
with it. -/
def strip : Bool → List Char → List Char
  | _, [] => []
  | false, char :: rest =>
    if isBlank char then strip false rest else char :: strip (decide (char = '\x22')) rest
  | true, '\\' :: char :: rest => '\\' :: char :: strip true rest
  | true, char :: rest => char :: strip (decide (char ≠ '\x22')) rest

theorem strip_char (char : Char) (rest : List Char) : strip false (char :: rest) =
    if isBlank char then strip false rest else char :: strip (decide (char = '\x22')) rest :=
  rfl

theorem strip_slash (char : Char) (rest : List Char) :
    strip true ('\\' :: char :: rest) = '\\' :: char :: strip true rest :=
  rfl

theorem strip_blanks {blanks : List Char} (blank : blanks.all isBlank = true) (rest : List Char) :
    strip false (blanks ++ rest) = strip false rest := by
  induction blanks with
  | nil => rfl
  | cons char blanks ih =>
    rw [List.all_cons, Bool.and_eq_true] at blank
    rw [List.cons_append, strip_char, if_pos blank.1, ih blank.2]

theorem strip_plain {text : List Char}
    (plain : ∀ char ∈ text, isBlank char = false ∧ char ≠ '\x22') (rest : List Char) :
    strip false (text ++ rest) = text ++ strip false rest := by
  induction text with
  | nil => rfl
  | cons char text ih =>
    obtain ⟨open', quote⟩ := plain char List.mem_cons_self
    rw [List.cons_append, strip_char, if_neg (by simp [open']), decide_eq_false quote,
      ih fun other member => plain other (List.mem_cons_of_mem _ member)]
    rfl

theorem strip_inside {char : Char} (apart : char ≠ '\x22' ∧ char ≠ '\\') (rest : List Char) :
    strip true (char :: rest) = char :: strip true rest := by
  rw [strip, decide_eq_true apart.1]
  intro _ _ slash _
  exact apart.2 slash

theorem digit_apart : ∀ digit < 16, Nat.digitChar digit ≠ '\x22' ∧ Nat.digitChar digit ≠ '\\' := by
  decide

theorem strip_escape (char : Char) (rest : List Char) :
    strip true (plainEscape char ++ rest) = plainEscape char ++ strip true rest := by
  unfold plainEscape
  split_ifs with quote slash
  all_goals try rfl
  · have digit (number : Nat) (rest : List Char) := strip_inside
      (digit_apart (number % 16) (Nat.mod_lt _ (by decide))) rest
    simp only [hexEscape, List.cons_append, List.nil_append]
    rw [strip_slash, digit, digit, digit, digit]
  · exact strip_inside ⟨quote, slash⟩ rest

theorem strip_string (text : String) (rest : List Char) :
    strip false (writeEscapedString text ++ rest) = writeEscapedString text ++ strip false rest := by
  have body : ∀ chars : List Char, strip true (chars.flatMap plainEscape ++ '\x22' :: rest) =
      chars.flatMap plainEscape ++ '\x22' :: strip false rest := by
    intro chars
    induction chars with
    | nil => rfl
    | cons char chars ih =>
      rw [List.flatMap_cons, List.append_assoc, strip_escape, ih, List.append_assoc]
  rw [writeEscapedString, List.cons_append, List.append_assoc, List.singleton_append, strip_char,
    if_neg (by decide), decide_eq_true rfl, body, List.cons_append, List.append_assoc]
  rfl

section Stripping

variable {Double : Type} {doubles : Doubles Double} {spelling : Spelling doubles}

theorem strip_number (number : Numeral Double) (rest : List Char) :
    strip false (writeNumber spelling number ++ rest) =
      writeNumber spelling number ++ strip false rest := by
  have numerals {text : List Char} (plain : ∀ char ∈ text, isNumeral char = true) :
      strip false (text ++ rest) = text ++ strip false rest := by
    apply strip_plain
    intro char member
    have numeral := plain char member
    constructor
    · simp only [isBlank, Bool.or_eq_false_iff, decide_eq_false_iff_not]
      refine ⟨⟨⟨?_, ?_⟩, ?_⟩, ?_⟩ <;> rintro rfl <;> cases numeral
    · rintro rfl
      cases numeral
  cases number with
  | integer number => exact numerals (JsonGrammar.intText_numeral number)
  | double number =>
    rw [writeNumber]
    split
    case isTrue finite =>
      apply numerals
      have whole := (numberToken_text (spelling.spelled number finite)).2
      have spec := (numberToken_spec (spelling.text number)).2.1
      rw [whole] at spec
      exact spec
    case isFalse => rfl

theorem strip_cons {char : Char} (plain : isBlank char = false ∧ char ≠ '\x22')
    (rest : List Char) : strip false (char :: rest) = char :: strip false rest :=
  @strip_plain [char] (by simpa using plain) rest

/-- What comes between separators is stripped by itself. -/
theorem strip_intercalate {Item : Type} {items : List Item} {text bare : Item → List Char}
    (each : ∀ item ∈ items, ∀ rest, strip false (text item ++ rest) = bare item ++ strip false rest)
    (rest : List Char) :
    strip false ([','].intercalate (items.map text) ++ rest) =
      [','].intercalate (items.map bare) ++ strip false rest := by
  induction items with
  | nil => rfl
  | cons item items ih =>
    have here := each item List.mem_cons_self
    cases items with
    | nil =>
      rw [List.map_singleton, List.intercalate_singleton, here, List.map_singleton,
        List.intercalate_singleton]
    | cons next items =>
      have later := ih fun other member => each other (List.mem_cons_of_mem _ member)
      have split (spell : Item → List Char) :
          [','].intercalate ((item :: next :: items).map spell) =
            spell item ++ [','] ++ [','].intercalate ((next :: items).map spell) :=
        List.intercalate_cons_of_ne_nil (by simp)
      rw [split text, split bare, List.append_assoc, List.append_assoc, here,
        List.singleton_append, strip_cons (by decide), later]
      simp

theorem strip_write (layout : Layout) (value : Json Double) : ∀ level bare rest,
    strip false (write spelling layout level value ++ rest) =
      write spelling compact bare value ++ strip false rest := by
  induction value using Tree.induct with
  | null =>
    intro level bare rest
    rw [write, write]
    rfl
  | bool value =>
    intro level bare rest
    cases value <;> rw [write, write] <;> rfl
  | number number =>
    intro level bare rest
    rw [write, write]
    exact strip_number number rest
  | string text =>
    intro level bare rest
    rw [write, write]
    exact strip_string text rest
  | array items ih =>
    intro level bare rest
    cases items with
    | nil =>
      rw [write, write]
      rfl
    | cons item items =>
      have each : ∀ entry ∈ item :: items, ∀ rest, strip false ((layout.beforeItem level ++
          write spelling layout (level + 1) entry) ++ rest) =
            (compact.beforeItem bare ++ write spelling compact (bare + 1) entry) ++
              strip false rest := by
        intro entry member rest
        rw [List.append_assoc, strip_blanks (layout.item_blank level), ih entry member _ (bare + 1)]
        rfl
      rw [write, write]
      · rw [List.cons_append, strip_cons (by decide), List.append_assoc, strip_intercalate each,
          List.append_assoc, strip_blanks (layout.close_blank level), List.singleton_append,
          strip_cons (by decide)]
        simp [compact]
      all_goals simp
  | object members ih =>
    intro level bare rest
    cases members with
    | nil =>
      rw [write, write]
      rfl
    | cons first members =>
      have each : ∀ entry ∈ first :: members, ∀ rest, strip false ((layout.beforeItem level ++
          (writeEscapedString entry.1 ++ ':' :: (layout.afterColon ++
            write spelling layout (level + 1) entry.2))) ++ rest) =
            (compact.beforeItem bare ++ (writeEscapedString entry.1 ++ ':' ::
              (compact.afterColon ++ write spelling compact (bare + 1) entry.2))) ++
                strip false rest := by
        intro entry member rest
        rw [List.append_assoc, strip_blanks (layout.item_blank level), List.append_assoc,
          strip_string, List.cons_append, strip_cons (by decide), List.append_assoc,
          strip_blanks layout.colon_blank, ih entry member _ (bare + 1)]
        simp [compact]
      rw [write, write]
      · rw [List.cons_append, strip_cons (by decide), List.append_assoc, strip_intercalate each,
          List.append_assoc, strip_blanks (layout.close_blank level), List.singleton_append,
          strip_cons (by decide)]
        simp [compact]
      all_goals simp

/-- The reader gives back what either writer writes, and the two differ in blanks outside of
strings only. -/
theorem writers_inverted {canon : String → String} {value : Json Double}
    (finite : Finite spelling canon value) (indent : Nat) :
    parse doubles canon (encode (serialize spelling value)) = .ok value ∧
      parse doubles canon (encode (serializePretty spelling indent value)) = .ok value ∧
      strip false (serializePretty spelling indent value) = serialize spelling value := by
  refine ⟨parse_write compact finite, parse_write (pretty indent) finite, ?_⟩
  have stripped := @strip_write _ _ spelling (pretty indent) value 0 0 []
  rw [List.append_nil] at stripped
  rw [serializePretty, stripped]
  exact List.append_nil _

end Stripping

/-- A double whose text is `1.5`; no other is finite. -/
def oneAndHalf : Spelling spelledDoubles where
  finite := fun number => decide (number = ['1', '.', '5'])
  text := id
  spelled := by
    intro number finite
    rw [of_decide_eq_true finite]
    exact ⟨['1'], ['.', '5'], [], rfl, .inr ⟨['5'], ⟨by decide, rfl⟩, rfl⟩, .inl rfl, rfl⟩
  fractional := by
    intro number finite
    rw [of_decide_eq_true finite]
    rfl
  reads := fun _ _ => rfl

/-- An object with a list of an integer and a double. -/
def smallObject : Json (List Char) :=
  .object [("k", .array [.number (.integer 1), .number (.double ['1', '.', '5'])])]

theorem smallObject_inverted :
    parse spelledDoubles id (encode (serialize oneAndHalf smallObject)) = .ok smallObject ∧
      parse spelledDoubles id (encode (serializePretty oneAndHalf 2 smallObject)) =
        .ok smallObject ∧
      strip false (serializePretty oneAndHalf 2 smallObject) = serialize oneAndHalf smallObject := by
  apply writers_inverted
  have one : InInt64 1 := by decide
  simp [smallObject, Finite, Numeral.Finite, one, oneAndHalf]

end Fantastic.Swift.JsonBytes
