import Fantastic.Foundation.JsonRoundTrip
import Fantastic.Foundation.Utf8

/-!
# The JSON grammar over bytes

The texts of RFC 8259 in UTF-8 as a relation between the bytes before a value, the value and the
bytes after it. Which characters stand unescaped in a string and which runs are numbers is a
parameter, so that a reader that takes more is described by the same rules. A text is a tree with
every member of an object in order; what a repeated key means is said apart from the grammar.
-/

namespace Fantastic.JsonSyntax

open JsonGrammar (integer? isNumeral)

/-! ### Trees -/

inductive Tree (Number : Type) where
  | null
  | bool (value : Bool)
  | number (value : Number)
  | string (text : String)
  | array (items : List (Tree Number))
  | object (members : List (String × Tree Number))

variable {Number : Type}

namespace Tree

theorem smaller_item [SizeOf Number] {items : List (Tree Number)} {item : Tree Number} (member : item ∈ items) :
    sizeOf item < sizeOf (array items) := by
  have smaller := List.sizeOf_lt_of_mem member
  rw [array.sizeOf_spec]
  omega

theorem smaller_entry [SizeOf Number] {members : List (String × Tree Number)}
    {entry : String × Tree Number} (member : entry ∈ members) : sizeOf entry.2 < sizeOf (object members) := by
  obtain ⟨key, value⟩ := entry
  have smaller := List.sizeOf_lt_of_mem member
  rw [Prod.mk.sizeOf_spec] at smaller
  rw [object.sizeOf_spec]
  change sizeOf value < _
  omega

@[elab_as_elim]
theorem induct {motive : Tree Number → Prop} (null : motive .null)
    (bool : ∀ value, motive (.bool value)) (number : ∀ value, motive (.number value))
    (string : ∀ text, motive (.string text))
    (array : ∀ items, (∀ item ∈ items, motive item) → motive (.array items))
    (object : ∀ members, (∀ entry ∈ members, motive entry.2) → motive (.object members))
    (tree : Tree Number) : motive tree := by
  match tree with
  | .null => exact null
  | .bool value => exact bool value
  | .number value => exact number value
  | .string text => exact string text
  | .array items =>
    apply array
    intro item member
    exact induct null bool number string array object item
  | .object members =>
    apply object
    intro entry member
    exact induct null bool number string array object entry.2
termination_by sizeOf tree
decreasing_by
  · exact smaller_item member
  · exact smaller_entry member

end Tree

/-! ### Blanks, strings and numbers -/

def isBlank (byte : UInt8) : Bool :=
  byte = 0x20 || byte = 0x09 || byte = 0x0A || byte = 0x0D

/-- Blanks, and what follows them. -/
def Blanks (bytes rest : List UInt8) : Prop :=
  ∃ blanks, bytes = blanks ++ rest ∧ ∀ byte ∈ blanks, isBlank byte = true

def encode (chars : List Char) : List UInt8 :=
  chars.flatMap String.utf8EncodeChar

def hexDigit (byte : UInt8) : Option Nat :=
  if 0x30 ≤ byte ∧ byte ≤ 0x39 then some (byte.toNat - 0x30)
  else if 0x41 ≤ byte ∧ byte ≤ 0x46 then some (byte.toNat - 0x41 + 10)
  else if 0x61 ≤ byte ∧ byte ≤ 0x66 then some (byte.toNat - 0x61 + 10)
  else none

/-- Four hexadecimal digits. -/
def hex4 : List UInt8 → Option (Nat × List UInt8)
  | first :: second :: third :: fourth :: rest => do
      let a ← hexDigit first
      let b ← hexDigit second
      let c ← hexDigit third
      let d ← hexDigit fourth
      return (((a * 16 + b) * 16 + c) * 16 + d, rest)
  | _ => none

/-- The escapes of two characters. -/
def shortEscapes : List (UInt8 × Char) :=
  [(0x22, '\x22'), (0x5C, '\\'), (0x2F, '/'), (0x62, '\x08'), (0x66, '\x0c'), (0x6E, '\n'),
    (0x72, '\r'), (0x74, '\t')]

/-- What follows a backslash. -/
inductive Escape : List UInt8 → Char → List UInt8 → Prop where
  | short {mark : UInt8} {char : Char} (listed : shortEscapes.lookup mark = some char)
      (rest : List UInt8) : Escape (mark :: rest) char rest
  | unit {bytes rest : List UInt8} {unit : Nat} (read : hex4 bytes = some (unit, rest))
      (scalar : unit < 0xD800 ∨ 0xDFFF < unit) : Escape (0x75 :: bytes) (Char.ofNat unit) rest
  | pair {bytes middle rest : List UInt8} {high low : Nat}
      (first : hex4 bytes = some (high, 0x5C :: 0x75 :: middle))
      (leads : 0xD800 ≤ high ∧ high ≤ 0xDBFF) (second : hex4 middle = some (low, rest))
      (trails : 0xDC00 ≤ low ∧ low ≤ 0xDFFF) :
      Escape (0x75 :: bytes) (Char.ofNat (0x10000 + (high - 0xD800) * 0x400 + (low - 0xDC00))) rest

/-- The characters of a string and its closing quote. -/
inductive Quoted (plain : Char → Prop) : List UInt8 → List Char → List UInt8 → Prop where
  | close (rest : List UInt8) : Quoted plain (0x22 :: rest) [] rest
  | plain {char : Char} {text : List Char} {bytes rest : List UInt8} (allowed : plain char)
      (apart : char ≠ '\x22' ∧ char ≠ '\\') (more : Quoted plain bytes text rest) :
      Quoted plain (String.utf8EncodeChar char ++ bytes) (char :: text) rest
  | escape {char : Char} {text : List Char} {bytes middle rest : List UInt8}
      (escaped : Escape bytes char middle) (more : Quoted plain middle text rest) :
      Quoted plain (0x5C :: bytes) (char :: text) rest

def Digits (digits : List Char) : Prop :=
  digits ≠ [] ∧ digits.all Char.isDigit = true

/-- `frac`, or nothing. -/
def Fraction (chars : List Char) : Prop :=
  chars = [] ∨ ∃ digits, Digits digits ∧ chars = '.' :: digits

/-- `exp`, or nothing. -/
def Exponent (chars : List Char) : Prop :=
  chars = [] ∨ ∃ mark sign digits, (mark = 'e' ∨ mark = 'E') ∧
    (sign = [] ∨ sign = ['+'] ∨ sign = ['-']) ∧ Digits digits ∧ chars = mark :: (sign ++ digits)

/-- `number`: an integer without a leading zero, a fraction and an exponent. -/
def NumberText (token : List Char) : Prop :=
  ∃ whole fraction exponent, (integer? whole).isSome ∧ Fraction fraction ∧ Exponent exponent ∧
    token = whole ++ (fraction ++ exponent)

/-! ### Values -/

/-- The characters that stand in strings as they are, and the numbers. -/
structure Rules (Number : Type) where
  plain : Char → Prop
  number : List Char → Number → Prop

def nullText : List UInt8 :=
  [0x6E, 0x75, 0x6C, 0x6C]

def trueText : List UInt8 :=
  [0x74, 0x72, 0x75, 0x65]

def falseText : List UInt8 :=
  [0x66, 0x61, 0x6C, 0x73, 0x65]

/-- What a stretch of bytes spells: a value, or the items or members between brackets. -/
inductive Form where
  | value
  | items
  | members

inductive Reads (rules : Rules Number) : Form → List UInt8 → Tree Number → List UInt8 → Prop where
  | null (rest : List UInt8) : Reads rules .value (nullText ++ rest) .null rest
  | true (rest : List UInt8) : Reads rules .value (trueText ++ rest) (.bool true) rest
  | false (rest : List UInt8) : Reads rules .value (falseText ++ rest) (.bool false) rest
  | number {token : List Char} {number : Number} (spelled : rules.number token number)
      (rest : List UInt8) : Reads rules .value (encode token ++ rest) (.number number) rest
  | string {bytes rest : List UInt8} {text : List Char}
      (quoted : Quoted rules.plain bytes text rest) :
      Reads rules .value (0x22 :: bytes) (.string (String.ofList text)) rest
  | noItems {bytes rest : List UInt8} (blank : Blanks bytes (0x5D :: rest)) :
      Reads rules .value (0x5B :: bytes) (.array []) rest
  | array {bytes rest : List UInt8} {items : List (Tree Number)}
      (inside : Reads rules .items bytes (.array items) (0x5D :: rest)) :
      Reads rules .value (0x5B :: bytes) (.array items) rest
  | lastItem {bytes start stop rest : List UInt8} {item : Tree Number}
      (before : Blanks bytes start) (read : Reads rules .value start item stop)
      (after : Blanks stop rest) : Reads rules .items bytes (.array [item]) rest
  | item {bytes start stop next rest : List UInt8} {item : Tree Number} {items : List (Tree Number)}
      (before : Blanks bytes start) (read : Reads rules .value start item stop)
      (after : Blanks stop (0x2C :: next)) (more : Reads rules .items next (.array items) rest) :
      Reads rules .items bytes (.array (item :: items)) rest
  | noMembers {bytes rest : List UInt8} (blank : Blanks bytes (0x7D :: rest)) :
      Reads rules .value (0x7B :: bytes) (.object []) rest
  | object {bytes rest : List UInt8} {members : List (String × Tree Number)}
      (inside : Reads rules .members bytes (.object members) (0x7D :: rest)) :
      Reads rules .value (0x7B :: bytes) (.object members) rest
  | lastMember {bytes named colon afterColon start stop rest : List UInt8} {key : List Char}
      {item : Tree Number} (before : Blanks bytes (0x22 :: named))
      (quoted : Quoted rules.plain named key colon) (between : Blanks colon (0x3A :: afterColon))
      (blank : Blanks afterColon start) (read : Reads rules .value start item stop)
      (after : Blanks stop rest) :
      Reads rules .members bytes (.object [(String.ofList key, item)]) rest
  | member {bytes named colon afterColon start stop next rest : List UInt8} {key : List Char}
      {item : Tree Number} {members : List (String × Tree Number)}
      (before : Blanks bytes (0x22 :: named)) (quoted : Quoted rules.plain named key colon)
      (between : Blanks colon (0x3A :: afterColon)) (blank : Blanks afterColon start)
      (read : Reads rules .value start item stop) (after : Blanks stop (0x2C :: next))
      (more : Reads rules .members next (.object members) rest) :
      Reads rules .members bytes (.object ((String.ofList key, item) :: members)) rest

/-- A whole text: one value with blanks around it. -/
def Text (rules : Rules Number) (bytes : List UInt8) (tree : Tree Number) : Prop :=
  ∃ start stop, Blanks bytes start ∧ Reads rules .value start tree stop ∧ Blanks stop []

/-! ### Bytes and strings -/

@[simp] theorem encode_append (first second : List Char) :
    encode (first ++ second) = encode first ++ encode second :=
  List.flatMap_append

@[simp] theorem encode_cons (char : Char) (chars : List Char) :
    encode (char :: chars) = String.utf8EncodeChar char ++ encode chars :=
  List.flatMap_cons

theorem hex4_length {bytes rest : List UInt8} {unit : Nat} (read : hex4 bytes = some (unit, rest)) :
    rest.length + 4 = bytes.length := by
  unfold hex4 at read
  split at read
  · simp only [Option.bind_eq_bind, Option.bind_eq_some_iff] at read
    obtain ⟨_, _, _, _, _, _, _, _, same⟩ := read
    cases same
    rfl
  · cases read

theorem Escape.length {bytes rest : List UInt8} {char : Char} (escape : Escape bytes char rest) :
    rest.length < bytes.length := by
  cases escape with
  | short => exact Nat.lt_succ_self _
  | unit read =>
    have size := hex4_length read
    rw [List.length_cons]
    omega
  | pair first _ second =>
    have outer := hex4_length first
    have inner := hex4_length second
    rw [List.length_cons, List.length_cons] at outer
    rw [List.length_cons]
    omega

theorem Quoted.length {plain : Char → Prop} {bytes rest : List UInt8} {text : List Char}
    (quoted : Quoted plain bytes text rest) : rest.length < bytes.length := by
  induction quoted with
  | close rest => exact Nat.lt_succ_self _
  | plain _ _ _ ih =>
    rw [List.length_append]
    omega
  | escape escaped _ ih =>
    have size := escaped.length
    rw [List.length_cons]
    omega

/-- A run of characters that stand as they are. -/
theorem Quoted.append {plain : Char → Prop} {chars text : List Char} {bytes rest : List UInt8}
    (allowed : ∀ char ∈ chars, plain char ∧ char ≠ '\x22' ∧ char ≠ '\\')
    (quoted : Quoted plain bytes text rest) :
    Quoted plain (encode chars ++ bytes) (chars ++ text) rest := by
  induction chars with
  | nil => exact quoted
  | cons char chars ih =>
    obtain ⟨fine, apart⟩ := allowed char List.mem_cons_self
    rw [encode_cons, List.append_assoc]
    exact .plain fine apart (ih fun other member => allowed other (List.mem_cons_of_mem _ member))

/-- The first run of a string ends at its closing quote or at an escape. -/
theorem Quoted.run {plain : Char → Prop} {bytes rest : List UInt8} {text : List Char}
    (quoted : Quoted plain bytes text rest) :
    ∃ chars text' byte more, text = chars ++ text' ∧ bytes = encode chars ++ byte :: more ∧
      (∀ char ∈ chars, char ≠ '\x22' ∧ char ≠ '\\') ∧ (byte = 0x22 ∨ byte = 0x5C) ∧
      Quoted plain (byte :: more) text' rest := by
  induction quoted with
  | close rest => exact ⟨[], [], _, _, rfl, rfl, by simp, .inl rfl, .close rest⟩
  | @plain char text bytes rest allowed apart more ih =>
    obtain ⟨chars, text', byte, others, rfl, rfl, fine, ends, quoted⟩ := ih
    refine ⟨char :: chars, text', byte, others, rfl, ?_, ?_, ends, quoted⟩
    · rw [encode_cons, List.append_assoc]
    · exact List.forall_mem_cons.mpr ⟨apart, fine⟩
  | @escape char text bytes middle rest escaped more ih =>
    exact ⟨[], char :: text, _, _, rfl, rfl, by simp, .inr rfl, .escape escaped more⟩

/-! ### Blanks -/

theorem Blanks.trans {bytes middle rest : List UInt8} (first : Blanks bytes middle)
    (second : Blanks middle rest) : Blanks bytes rest := by
  obtain ⟨front, rfl, blank⟩ := first
  obtain ⟨back, rfl, others⟩ := second
  refine ⟨front ++ back, (List.append_assoc _ _ _).symm, ?_⟩
  intro byte member
  exact (List.mem_append.mp member).elim (blank byte) (others byte)

/-- Blanks before items and members are part of them. -/
theorem Reads.before {rules : Rules Number} {form : Form}
    {bytes start rest : List UInt8} {tree : Tree Number} (inner : form ≠ .value)
    (blanks : Blanks bytes start) (read : Reads rules form start tree rest) :
    Reads rules form bytes tree rest := by
  cases read with
  | lastItem before read after => exact .lastItem (blanks.trans before) read after
  | item before read after more => exact .item (blanks.trans before) read after more
  | lastMember before quoted between blank read after =>
    exact .lastMember (blanks.trans before) quoted between blank read after
  | member before quoted between blank read after more =>
    exact .member (blanks.trans before) quoted between blank read after more
  | _ => exact absurd rfl inner

/-! ### Wider rules -/

section Wider

variable {rules wider : Rules Number}

theorem Quoted.mono {bytes rest : List UInt8} {text : List Char}
    (chars : ∀ char, rules.plain char → wider.plain char)
    (quoted : Quoted rules.plain bytes text rest) : Quoted wider.plain bytes text rest := by
  induction quoted with
  | close rest => exact .close rest
  | plain allowed apart _ ih => exact .plain (chars _ allowed) apart ih
  | escape escaped _ ih => exact .escape escaped ih

theorem Reads.mono {form : Form} {bytes rest : List UInt8} {tree : Tree Number}
    (chars : ∀ char, rules.plain char → wider.plain char)
    (numbers : ∀ token number, rules.number token number → wider.number token number)
    (read : Reads rules form bytes tree rest) : Reads wider form bytes tree rest := by
  induction read with
  | null rest => exact .null rest
  | true rest => exact .true rest
  | false rest => exact .false rest
  | number spelled rest => exact .number (numbers _ _ spelled) rest
  | string quoted => exact .string (quoted.mono chars)
  | noItems blank => exact .noItems blank
  | array _ ih => exact .array ih
  | lastItem before _ after ih => exact .lastItem before ih after
  | item before _ after _ first later => exact .item before first after later
  | noMembers blank => exact .noMembers blank
  | object _ ih => exact .object ih
  | lastMember before quoted between blank _ after ih =>
    exact .lastMember before (quoted.mono chars) between blank ih after
  | member before quoted between blank _ after _ first later =>
    exact .member before (quoted.mono chars) between blank first after later

theorem Text.mono {bytes : List UInt8} {tree : Tree Number}
    (chars : ∀ char, rules.plain char → wider.plain char)
    (numbers : ∀ token number, rules.number token number → wider.number token number)
    (text : Text rules bytes tree) : Text wider bytes tree := by
  obtain ⟨start, stop, before, read, after⟩ := text
  exact ⟨start, stop, before, read.mono chars numbers, after⟩

end Wider

/-! ### Repeated keys -/

section Keys

variable {Value Other : Type} (canon : String → String)

/-- A member set by its key, of which only the canonical form counts: a key that is there keeps its
place and its spelling and takes the value. -/
def put (members : List (String × Value)) (key : String) (value : Value) : List (String × Value) :=
  if members.any fun entry => canon entry.1 = canon key then
    members.map fun entry => if canon entry.1 = canon key then (entry.1, value) else entry
  else members ++ [(key, value)]

/-- The members of a text, set one after the other. -/
def keep (members : List (String × Value)) : List (String × Value) :=
  members.foldl (fun kept entry => put canon kept entry.1 entry.2) []

/-- Keys that differ have different canonical forms. -/
def ApartKeys (keys : List String) : Prop :=
  ∀ first ∈ keys, ∀ second ∈ keys, canon first = canon second → first = second

theorem put_map (change : Value → Other) (members : List (String × Value)) (key : String)
    (value : Value) :
    put canon (members.map (Prod.map id change)) key (change value) =
      (put canon members key value).map (Prod.map id change) := by
  unfold put
  have found : ((members.map (Prod.map id change)).any fun entry => canon entry.1 = canon key) =
      members.any fun entry => canon entry.1 = canon key := by
    rw [List.any_map]
    rfl
  rw [found]
  split
  · rw [List.map_map, List.map_map]
    apply List.map_congr_left
    intro entry _
    simp only [Function.comp_apply, Prod.map_fst, id_eq]
    split <;> rfl
  · rw [List.map_append]
    rfl

/-- Which members are kept does not depend on their values. -/
theorem keep_map (change : Value → Other) (members : List (String × Value)) :
    keep canon (members.map (Prod.map id change)) =
      (keep canon members).map (Prod.map id change) := by
  have general : ∀ kept : List (String × Value),
      (members.map (Prod.map id change)).foldl (fun kept entry => put canon kept entry.1 entry.2)
          (kept.map (Prod.map id change)) =
        (members.foldl (fun kept entry => put canon kept entry.1 entry.2) kept).map
          (Prod.map id change) := by
    induction members with
    | nil => exact fun _ => rfl
    | cons entry members ih =>
      intro kept
      rw [List.map_cons, List.foldl_cons, List.foldl_cons, ← ih, ← put_map]
      rfl
  exact general []

theorem put_keys (members : List (String × Value)) (key : String) (value : Value) :
    (put canon members key value).map Prod.fst =
      if members.any fun entry => canon entry.1 = canon key then members.map Prod.fst
      else members.map Prod.fst ++ [key] := by
  unfold put
  split
  · rw [List.map_map]
    apply List.map_congr_left
    intro entry _
    simp only [Function.comp_apply]
    split <;> rfl
  · rw [List.map_append]
    rfl

theorem put_nodup {members : List (String × Value)} (key : String) (value : Value)
    (distinct : ((members.map Prod.fst).map canon).Nodup) :
    (((put canon members key value).map Prod.fst).map canon).Nodup := by
  rw [put_keys]
  split
  case isTrue => exact distinct
  case isFalse absent =>
    rw [List.map_append, List.nodup_append]
    refine ⟨distinct, List.nodup_singleton _, ?_⟩
    intro form listed other here same
    rw [List.map_singleton, List.mem_singleton] at here
    rw [List.map_map] at listed
    obtain ⟨entry, member, rfl⟩ := List.mem_map.mp listed
    exact absent (List.any_eq_true.mpr ⟨entry, member, decide_eq_true (same.trans here)⟩)

/-- No two kept keys have one canonical form. -/
theorem keep_nodup (members : List (String × Value)) :
    (((keep canon members).map Prod.fst).map canon).Nodup := by
  have general : ∀ kept : List (String × Value), ((kept.map Prod.fst).map canon).Nodup →
      (((members.foldl (fun kept entry => put canon kept entry.1 entry.2) kept).map
        Prod.fst).map canon).Nodup := by
    induction members with
    | nil => exact fun _ distinct => distinct
    | cons entry members ih => exact fun kept distinct => ih _ (put_nodup canon _ _ distinct)
  exact general [] List.nodup_nil

theorem keep_apart (members : List (String × Value)) :
    ApartKeys canon ((keep canon members).map Prod.fst) := by
  intro first member second other same
  exact List.inj_on_of_nodup_map (keep_nodup canon members) member other same

theorem keep_keys (members : List (String × Value)) (key : String) :
    key ∈ (keep id members).map Prod.fst ↔ key ∈ members.map Prod.fst := by
  have general : ∀ kept : List (String × Value),
      key ∈ (members.foldl (fun kept entry => put id kept entry.1 entry.2) kept).map Prod.fst ↔
        key ∈ kept.map Prod.fst ∨ key ∈ members.map Prod.fst := by
    induction members with
    | nil => simp
    | cons entry members ih =>
      intro kept
      rw [List.foldl_cons, ih, put_keys, List.map_cons, List.mem_cons, ← or_assoc]
      apply or_congr_left
      split
      case isTrue found =>
        obtain ⟨old, member, same⟩ := List.any_eq_true.mp found
        have listed : entry.1 ∈ kept.map Prod.fst :=
          List.mem_map.mpr ⟨old, member, of_decide_eq_true same⟩
        exact ⟨.inl, fun either => either.elim id fun same => same ▸ listed⟩
      case isFalse => rw [List.mem_append, List.mem_singleton]
  exact (general []).trans (or_iff_right List.not_mem_nil)

theorem put_value {members : List (String × Value)} {key : String} {value : Value}
    {entry : String × Value} (member : entry ∈ put canon members key value) :
    entry.2 = value ∨ ∃ old ∈ members, old.2 = entry.2 := by
  unfold put at member
  split at member
  · obtain ⟨old, listed, rfl⟩ := List.mem_map.mp member
    split
    · exact .inl rfl
    · exact .inr ⟨old, listed, rfl⟩
  · rcases List.mem_append.mp member with listed | listed
    · exact .inr ⟨entry, listed, rfl⟩
    · rw [List.mem_singleton.mp listed]
      exact .inl rfl

/-- A kept value is one of the text. -/
theorem keep_value {members : List (String × Value)} {entry : String × Value}
    (kept : entry ∈ keep canon members) : ∃ old ∈ members, old.2 = entry.2 := by
  have general : ∀ before : List (String × Value),
      entry ∈ members.foldl (fun kept entry => put canon kept entry.1 entry.2) before →
        (∃ old ∈ before, old.2 = entry.2) ∨ ∃ old ∈ members, old.2 = entry.2 := by
    clear kept
    induction members with
    | nil => exact fun before member => .inl ⟨entry, member, rfl⟩
    | cons first members ih =>
      intro before member
      rcases ih _ member with ⟨old, listed, same⟩ | ⟨old, listed, same⟩
      · rcases put_value canon listed with value | ⟨older, listed, value⟩
        · exact .inr ⟨first, List.mem_cons_self, value.symm.trans same⟩
        · exact .inl ⟨older, listed, value.trans same⟩
      · exact .inr ⟨old, List.mem_cons_of_mem _ listed, same⟩
  rcases general [] kept with ⟨_, none, _⟩ | found
  · cases none
  · exact found

theorem keep_of_nodup {members : List (String × Value)}
    (distinct : ((members.map Prod.fst).map canon).Nodup) : keep canon members = members := by
  have general : ∀ kept : List (String × Value),
      (((kept ++ members).map Prod.fst).map canon).Nodup →
      members.foldl (fun kept entry => put canon kept entry.1 entry.2) kept = kept ++ members := by
    clear distinct
    induction members with
    | nil => exact fun kept _ => (List.append_nil kept).symm
    | cons entry members ih =>
      intro kept distinct
      have absent : ¬kept.any (fun old => canon old.1 = canon entry.1) = true := by
        intro found
        obtain ⟨old, member, same⟩ := List.any_eq_true.mp found
        rw [List.map_append, List.map_append, List.nodup_append] at distinct
        refine distinct.2.2 _ ?_ _ ?_ (of_decide_eq_true same)
        · exact List.mem_map_of_mem (List.mem_map_of_mem member)
        · exact List.mem_cons_self
      rw [List.foldl_cons, put, if_neg absent, ih _ (by simpa using distinct)]
      simp
  exact general [] distinct

/-- Where different keys have different canonical forms, only equal keys are repeated. -/
theorem keep_eq {members : List (String × Value)} (apart : ApartKeys canon (members.map Prod.fst)) :
    keep canon members = keep id members := by
  have general : ∀ kept : List (String × Value),
      ApartKeys canon (kept.map Prod.fst ++ members.map Prod.fst) →
      members.foldl (fun kept entry => put canon kept entry.1 entry.2) kept =
        members.foldl (fun kept entry => put id kept entry.1 entry.2) kept := by
    clear apart
    induction members with
    | nil => exact fun _ _ => rfl
    | cons first members ih =>
      intro kept apart
      have alike : ∀ entry ∈ kept,
          decide (canon entry.1 = canon first.1) = decide (id entry.1 = id first.1) := by
        intro entry member
        apply decide_eq_decide.mpr
        refine ⟨apart _ ?_ _ ?_, congrArg canon⟩
        · exact List.mem_append_left _ (List.mem_map_of_mem member)
        · exact List.mem_append_right _ List.mem_cons_self
      have step : put canon kept first.1 first.2 = put id kept first.1 first.2 := by
        have found : (kept.any fun entry => canon entry.1 = canon first.1) =
            kept.any fun entry => id entry.1 = id first.1 := by
          rw [Bool.eq_iff_iff, List.any_eq_true, List.any_eq_true]
          refine exists_congr fun entry => and_congr_right fun member => ?_
          rw [alike entry member]
        unfold put
        rw [found]
        split
        · apply List.map_congr_left
          intro entry member
          have same := decide_eq_decide.mp (alike entry member)
          simp only [same]
        · rfl
      rw [List.foldl_cons, List.foldl_cons, step]
      have inside : ∀ key ∈ (put id kept first.1 first.2).map Prod.fst ++ members.map Prod.fst,
          key ∈ kept.map Prod.fst ++ (first :: members).map Prod.fst := by
        intro key member
        rw [put_keys] at member
        rw [List.map_cons, List.mem_append, List.mem_cons]
        split at member
        · exact (List.mem_append.mp member).imp_right .inr
        · rw [List.append_assoc, List.singleton_append, List.mem_append, List.mem_cons] at member
          exact member
      exact ih _ fun one member two other =>
        apart one (inside one member) two (inside two other)
  exact general [] apart

end Keys

namespace Tree

/-- A text whose objects are dictionaries. -/
def merged (canon : String → String) : Tree Number → Tree Number
  | .array items => .array (items.map fun item => merged canon item)
  | .object members =>
    .object (keep canon (members.map fun entry => (entry.1, merged canon entry.2)))
  | leaf => leaf
termination_by tree => sizeOf tree
decreasing_by
  · exact smaller_item ‹_›
  · exact smaller_entry ‹_›

/-- In no object do different keys have one canonical form. -/
def Apart (canon : String → String) : Tree Number → Prop
  | .array items => ∀ item ∈ items, Apart canon item
  | .object members =>
    ApartKeys canon (members.map Prod.fst) ∧ ∀ entry ∈ members, Apart canon entry.2
  | _ => True
termination_by tree => sizeOf tree
decreasing_by
  · exact smaller_item ‹_›
  · exact smaller_entry ‹_›

variable (canon : String → String)

theorem merged_object (members : List (String × Tree Number)) :
    merged canon (.object members) =
      .object ((keep canon members).map (Prod.map id (merged canon))) := by
  rw [merged, ← keep_map]
  rfl

/-- Merging by canonical form agrees with merging by key where the keys that are left are apart. -/
theorem merged_eq_iff (tree : Tree Number) :
    merged canon tree = merged id tree ↔ (merged id tree).Apart canon := by
  induction tree using Tree.induct with
  | null => simp [merged, Apart]
  | bool value => simp [merged, Apart]
  | number value => simp [merged, Apart]
  | string text => simp [merged, Apart]
  | array items ih =>
    rw [merged, merged, Apart, array.injEq, List.map_inj_left]
    constructor
    · intro same item member
      obtain ⟨old, listed, rfl⟩ := List.mem_map.mp member
      exact (ih old listed).mp (same old listed)
    · intro apart item member
      exact (ih item member).mpr (apart _ (List.mem_map_of_mem member))
  | object members ih =>
    have values : ∀ entry ∈ keep id members,
        merged canon entry.2 = merged id entry.2 ↔ (merged id entry.2).Apart canon := by
      intro entry kept
      obtain ⟨old, listed, same⟩ := keep_value id kept
      rw [← same]
      exact ih old listed
    have keys : ((keep id members).map (Prod.map id (merged id))).map Prod.fst =
        (keep id members).map Prod.fst := by
      rw [List.map_map]
      rfl
    have alike (apart : ApartKeys canon ((keep id members).map Prod.fst)) :
        keep canon members = keep id members := by
      apply keep_eq
      intro first member second other
      exact apart first ((keep_keys members first).mpr member) second
        ((keep_keys members second).mpr other)
    rw [merged_object, merged_object, Apart, object.injEq, keys]
    constructor
    · intro same
      have apart : ApartKeys canon ((keep id members).map Prod.fst) := by
        have left := congrArg (List.map Prod.fst) same
        rw [keys, List.map_map] at left
        rw [← left]
        exact keep_apart canon members
      refine ⟨apart, ?_⟩
      intro entry member
      obtain ⟨old, listed, rfl⟩ := List.mem_map.mp member
      rw [alike apart, List.map_inj_left] at same
      exact (values old listed).mp (congrArg Prod.snd (same old listed))
    · rintro ⟨apart, below⟩
      rw [alike apart, List.map_inj_left]
      intro entry member
      have value := (values entry member).mpr (below _ (List.mem_map_of_mem member))
      exact Prod.ext rfl value

end Tree

end Fantastic.JsonSyntax
