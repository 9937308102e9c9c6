import Fantastic.Foundation.Utf8
import Mathlib.Data.List.TakeWhile

/-!
# The paths of mounted routes

`translate_path` of `fantastic-web` over the bytes of a path, beside the translation that a path of
characters is to have. A placeholder is a name between braces with no brace in it.
-/

namespace Fantastic.Rust

/-! ### The code -/

/-- `byte as char`. -/
def asChar (byte : UInt8) : Char :=
  Char.ofNat byte.toNat

/-- `&p[start..stop]`, where both ends are next to a brace. -/
def slice (bytes : List UInt8) : List Char :=
  ((String.fromUTF8? bytes.toByteArray).map String.toList).getD []

/-- What a placeholder becomes. -/
def axumForm (name : List Char) : List Char :=
  if ':' ∈ name then
    (if (name.dropWhile (· ≠ ':')).tail = "path".toList then '*' else ':') ::
      name.takeWhile (· ≠ ':')
  else ':' :: name

/-- The loop of `translate_path`, from the byte `i` on. -/
def translateFrom : List UInt8 → List Char
  | [] => []
  | byte :: rest =>
    if byte = 0x7B ∧ 0x7D ∈ rest then
      axumForm (slice (rest.takeWhile (· ≠ 0x7D))) ++
        translateFrom (rest.dropWhile (· ≠ 0x7D)).tail
    else asChar byte :: translateFrom rest
termination_by bytes => bytes.length
decreasing_by
  · have shorter := (List.dropWhile_suffix (fun byte : UInt8 => decide (byte ≠ 0x7D))
      (l := rest)).length_le
    rw [List.length_tail, List.length_cons]
    omega
  · rw [List.length_cons]
    omega

def translatePath (path : String) : String :=
  String.ofList (translateFrom (utf8 path))

/-! ### The translation -/

def notBrace (char : Char) : Bool :=
  char ≠ '\x7b' && char ≠ '\x7d'

inductive Piece where
  | plain (char : Char)
  | placeholder (name : List Char)

/-- The placeholders of a path, and the characters outside. -/
def pieces : List Char → List Piece
  | [] => []
  | char :: rest =>
    if char = '\x7b' ∧ (rest.dropWhile notBrace).head? = some '\x7d' then
      .placeholder (rest.takeWhile notBrace) :: pieces (rest.dropWhile notBrace).tail
    else .plain char :: pieces rest
termination_by chars => chars.length
decreasing_by
  · have shorter := (List.dropWhile_suffix notBrace (l := rest)).length_le
    rw [List.length_tail, List.length_cons]
    omega
  · rw [List.length_cons]
    omega

/-- What stands for a piece in the mounted path. -/
def Piece.mounted : Piece → List Char
  | .plain char => [char]
  | .placeholder name => axumForm name

def mounted (chars : List Char) : List Char :=
  (pieces chars).flatMap Piece.mounted

/-- The placeholders are translated and nothing else is changed, and once is as good as twice. -/
structure Mounts (path : String) : Prop where
  first : translatePath path = String.ofList (mounted path.toList)
  again : translatePath (translatePath path) = translatePath path

/-- No brace opens between a brace and the next one that closes. -/
def Flat (chars : List Char) : Prop :=
  ∀ before name behind, chars = before ++ '\x7b' :: name ++ '\x7d' :: behind →
    '\x7d' ∉ name → '\x7b' ∉ name

/-- A path without nested braces, where what stays of every piece is ASCII. -/
structure Translatable (path : String) : Prop where
  flat : Flat path.toList
  ascii : ∀ piece ∈ pieces path.toList, ∀ char ∈ piece.mounted, char.toNat < 0x80

/-! ### The loop over characters -/

theorem encoded_brace {char : Char} {byte : UInt8} (member : byte ∈ String.utf8EncodeChar char)
    (brace : byte = 0x7B ∨ byte = 0x7D) : char.toNat = byte.toNat := by
  apply (ascii_byte member _).2
  obtain rfl | rfl := brace <;> decide

theorem eq_of_toNat {char other : Char} (same : char.toNat = other.toNat) : char = other :=
  Char.ext (UInt32.toNat_inj.mp same)

theorem open_mem_encode {char : Char} (member : 0x7B ∈ String.utf8EncodeChar char) :
    char = '\x7b' :=
  eq_of_toNat (encoded_brace member (.inl rfl))

theorem close_mem_encode {char : Char} (member : 0x7D ∈ String.utf8EncodeChar char) :
    char = '\x7d' :=
  eq_of_toNat (encoded_brace member (.inr rfl))

theorem close_mem_flatMap {chars : List Char} :
    0x7D ∈ chars.flatMap String.utf8EncodeChar ↔ '\x7d' ∈ chars := by
  rw [List.mem_flatMap]
  constructor
  · rintro ⟨char, inside, member⟩
    exact close_mem_encode member ▸ inside
  · intro inside
    exact ⟨'\x7d', inside, by decide⟩

theorem slice_encoded (chars : List Char) :
    slice (chars.flatMap String.utf8EncodeChar) = chars := by
  have same : utf8 (String.ofList chars) = chars.flatMap String.utf8EncodeChar := by
    rw [utf8, String.toList_ofList]
  rw [slice, ← same, fromUTF8_utf8]
  exact String.toList_ofList

theorem translateFrom_append {bytes : List UInt8} (plain : 0x7B ∉ bytes) (rest : List UInt8) :
    translateFrom (bytes ++ rest) = bytes.map asChar ++ translateFrom rest := by
  induction bytes with
  | nil => rfl
  | cons byte bytes ih =>
    rw [List.mem_cons, not_or] at plain
    rw [List.cons_append, translateFrom, if_neg (fun both => plain.1 both.1.symm), ih plain.2]
    rfl

theorem translateFrom_plain {char : Char} (plain : char ≠ '\x7b') (rest : List Char) :
    translateFrom ((char :: rest).flatMap String.utf8EncodeChar) =
      (String.utf8EncodeChar char).map asChar ++
        translateFrom (rest.flatMap String.utf8EncodeChar) := by
  rw [List.flatMap_cons]
  exact translateFrom_append (fun member => plain (open_mem_encode member)) _

theorem translateFrom_open {rest : List Char} (unclosed : '\x7d' ∉ rest) :
    translateFrom (('\x7b' :: rest).flatMap String.utf8EncodeChar) =
      '\x7b' :: translateFrom (rest.flatMap String.utf8EncodeChar) := by
  have brace : String.utf8EncodeChar '\x7b' = [0x7B] := by decide
  rw [List.flatMap_cons, brace, List.singleton_append, translateFrom,
    if_neg fun both => unclosed (close_mem_flatMap.mp both.2)]
  rfl

theorem translateFrom_closed {name : List Char} (open' : '\x7d' ∉ name) (rest : List Char) :
    translateFrom (('\x7b' :: name ++ '\x7d' :: rest).flatMap String.utf8EncodeChar) =
      axumForm name ++ translateFrom (rest.flatMap String.utf8EncodeChar) := by
  have opens : String.utf8EncodeChar '\x7b' = [0x7B] := by decide
  have closes : String.utf8EncodeChar '\x7d' = [0x7D] := by decide
  have inside : ∀ byte ∈ name.flatMap String.utf8EncodeChar, decide (byte ≠ 0x7D) = true := by
    intro byte member
    apply decide_eq_true
    rintro rfl
    exact open' (close_mem_flatMap.mp member)
  rw [List.cons_append, List.flatMap_cons, opens, List.singleton_append, List.flatMap_append,
    List.flatMap_cons, closes, List.singleton_append, translateFrom, if_pos ⟨rfl, by simp⟩,
    List.takeWhile_append_of_pos inside, List.dropWhile_append_of_pos inside]
  simp only [ne_eq, not_true_eq_false, decide_false, Bool.false_eq_true, not_false_eq_true,
    List.takeWhile_cons_of_neg, List.dropWhile_cons_of_neg, List.append_nil, List.tail_cons,
    slice_encoded]

/-! ### Pieces -/

theorem pieces_plain {char : Char} (plain : char ≠ '\x7b') (rest : List Char) :
    pieces (char :: rest) = .plain char :: pieces rest := by
  rw [pieces, if_neg fun both => plain both.1]

theorem mounted_plain {char : Char} (plain : char ≠ '\x7b') (rest : List Char) :
    mounted (char :: rest) = char :: mounted rest := by
  rw [mounted, pieces_plain plain]
  rfl

theorem pieces_closed {name : List Char} (flat : '\x7b' ∉ name) (open' : '\x7d' ∉ name)
    (rest : List Char) :
    pieces ('\x7b' :: name ++ '\x7d' :: rest) = .placeholder name :: pieces rest := by
  have inside : ∀ char ∈ name, notBrace char = true := by
    intro char member
    rw [notBrace, Bool.and_eq_true]
    exact ⟨decide_eq_true fun same => flat (same ▸ member),
      decide_eq_true fun same => open' (same ▸ member)⟩
  have closes : notBrace '\x7d' = false := by decide
  have behind : (name ++ '\x7d' :: rest).dropWhile notBrace = '\x7d' :: rest := by
    rw [List.dropWhile_append_of_pos inside, List.dropWhile_cons, closes]
    rfl
  have taken : (name ++ '\x7d' :: rest).takeWhile notBrace = name := by
    rw [List.takeWhile_append_of_pos inside, List.takeWhile_cons, closes]
    exact List.append_nil name
  rw [List.cons_append, pieces, behind, taken, if_pos ⟨rfl, rfl⟩]
  rfl

/-- A brace that no other closes, or behind which another one opens first, stays. -/
theorem pieces_open {rest : List Char}
    (opens : ∀ name behind, rest = name ++ '\x7d' :: behind → '\x7b' ∈ name ∨ '\x7d' ∈ name) :
    pieces ('\x7b' :: rest) = .plain '\x7b' :: pieces rest := by
  rw [pieces, if_neg]
  rintro ⟨_, closes⟩
  obtain ⟨behind, next⟩ := List.head?_eq_some_iff.mp closes
  have split : rest = rest.takeWhile notBrace ++ '\x7d' :: behind := by
    rw [← next, List.takeWhile_append_dropWhile]
  obtain inside | inside := opens _ _ split
  all_goals
    have plain := List.mem_takeWhile_imp inside
    revert plain
    decide

theorem pieces_unclosed {rest : List Char} (unclosed : '\x7d' ∉ rest) :
    pieces ('\x7b' :: rest) = .plain '\x7b' :: pieces rest := by
  apply pieces_open
  rintro name behind rfl
  exact absurd (by simp) unclosed

theorem mounted_unclosed {rest : List Char} (unclosed : '\x7d' ∉ rest) :
    mounted ('\x7b' :: rest) = '\x7b' :: mounted rest := by
  rw [mounted, pieces_unclosed unclosed]
  rfl

theorem mounted_closed {name : List Char} (flat : '\x7b' ∉ name) (open' : '\x7d' ∉ name)
    (rest : List Char) :
    mounted ('\x7b' :: name ++ '\x7d' :: rest) = axumForm name ++ mounted rest := by
  rw [mounted, pieces_closed flat open']
  rfl

theorem axumForm_head (name : List Char) :
    ∃ head tail, axumForm name = head :: tail ∧ (head = ':' ∨ head = '*') := by
  unfold axumForm
  split
  · split
    · exact ⟨_, _, rfl, .inr rfl⟩
    · exact ⟨_, _, rfl, .inl rfl⟩
  · exact ⟨_, _, rfl, .inl rfl⟩

theorem open_not_mem_axumForm {name : List Char} (flat : '\x7b' ∉ name) :
    '\x7b' ∉ axumForm name := by
  have cut : '\x7b' ∉ name.takeWhile (· ≠ ':') := fun member =>
    flat ((List.takeWhile_prefix _).subset member)
  unfold axumForm
  split_ifs
  · exact List.not_mem_cons_of_ne_of_not_mem (by decide) cut
  · exact List.not_mem_cons_of_ne_of_not_mem (by decide) cut
  · exact List.not_mem_cons_of_ne_of_not_mem (by decide) flat

/-! ### Nested braces -/

theorem flat_cons {char : Char} {rest : List Char} :
    Flat (char :: rest) ↔ (char = '\x7b' → ∀ name behind, rest = name ++ '\x7d' :: behind →
      '\x7d' ∉ name → '\x7b' ∉ name) ∧ Flat rest := by
  constructor
  · intro flat
    constructor
    · rintro rfl name behind rfl
      exact flat [] name behind rfl
    · rintro before name behind rfl
      exact flat (char :: before) name behind rfl
  · rintro ⟨here, flat⟩ before name behind same
    cases before with
    | nil =>
      obtain ⟨rfl, rfl⟩ := List.cons.inj same
      exact here rfl name behind rfl
    | cons first before =>
      obtain ⟨rfl, rfl⟩ := List.cons.inj same
      exact flat before name behind rfl

theorem flat_append {front rest : List Char} (plain : '\x7b' ∉ front) :
    Flat (front ++ rest) ↔ Flat rest := by
  induction front with
  | nil => rfl
  | cons char front ih =>
    rw [List.mem_cons, not_or] at plain
    rw [List.cons_append, flat_cons, ih plain.2]
    exact and_iff_right fun same => absurd same.symm plain.1

theorem upToClose {name : List Char} (open' : '\x7d' ∉ name) (rest : List Char) :
    (name ++ '\x7d' :: rest).takeWhile (· ≠ '\x7d') = name := by
  have inside : ∀ char ∈ name, decide (char ≠ '\x7d') = true := by
    intro char member
    exact decide_eq_true fun same => open' (same ▸ member)
  rw [List.takeWhile_append_of_pos inside]
  simp

theorem flat_closed {name rest : List Char} (flat : '\x7b' ∉ name) (open' : '\x7d' ∉ name) :
    Flat ('\x7b' :: name ++ '\x7d' :: rest) ↔ Flat rest := by
  have front : '\x7b' ∉ name ++ ['\x7d'] := by simp [flat]
  rw [List.cons_append, flat_cons, ← List.singleton_append, ← List.append_assoc,
    flat_append front]
  apply and_iff_right
  intro _ other behind same away
  have first : name = other := by
    rw [List.append_assoc, List.singleton_append] at same
    rw [← upToClose open' rest, ← upToClose away behind, same]
  exact first ▸ flat

/-! ### Where the loop goes wrong -/

theorem asChar_toNat (byte : UInt8) : (asChar byte).toNat = byte.toNat := by
  have small := byte.toNat_lt
  unfold asChar Char.ofNat
  rw [dif_pos (Or.inl (by omega))]
  rfl

/-- The bytes of a character outside ASCII become as many characters outside ASCII, two or
more. -/
theorem asChar_wide {char : Char} (wide : ¬char.toNat < 0x80) :
    1 < ((String.utf8EncodeChar char).map asChar).length ∧
      ∀ other ∈ (String.utf8EncodeChar char).map asChar, ¬other.toNat < 0x80 := by
  constructor
  · rw [List.length_map, String.length_utf8EncodeChar]
    by_contra small
    have one : char.utf8Size = 1 := le_antisymm (by omega) char.utf8Size_pos
    rw [Char.utf8Size_eq_one_iff, UInt32.le_iff_toNat_le] at one
    change char.toNat ≤ 127 at one
    omega
  · intro other member
    obtain ⟨byte, inside, rfl⟩ := List.mem_map.mp member
    rw [asChar_toNat]
    intro small
    exact wide ((ascii_byte inside small).2 ▸ small)

theorem asChar_ascii {char : Char} (small : char.toNat < 0x80) :
    (String.utf8EncodeChar char).map asChar = [char] := by
  have number : (asChar (UInt8.ofNat char.toNat)).toNat = char.toNat := by
    rw [asChar_toNat, UInt8.toNat_ofNat']
    omega
  rw [encode_ascii small, List.map_singleton, eq_of_toNat number]

/-- A path goes on by a character, by a brace that nothing closes, or behind the next brace that
closes. -/
theorem brace_induction {motive : List Char → Prop} (nil : motive [])
    (plain : ∀ char rest, char ≠ '\x7b' → motive rest → motive (char :: rest))
    (opened : ∀ rest, '\x7d' ∉ rest → motive rest → motive ('\x7b' :: rest))
    (closed : ∀ name rest, '\x7d' ∉ name → motive rest →
      motive ('\x7b' :: name ++ '\x7d' :: rest)) (chars : List Char) : motive chars := by
  induction size : chars.length using Nat.strong_induction_on generalizing chars with
  | h _ ih =>
    subst size
    match chars with
    | [] => exact nil
    | char :: rest =>
      by_cases same : char = '\x7b'
      · subst same
        by_cases closes : '\x7d' ∈ rest
        · obtain ⟨name, behind, rfl, away⟩ := List.eq_append_cons_of_mem closes
          refine closed name behind away (ih _ ?_ behind rfl)
          rw [List.length_cons, List.length_append, List.length_cons]
          omega
        · exact opened rest closes (ih _ (Nat.lt_succ_self _) rest rfl)
      · exact plain char rest same (ih _ (Nat.lt_succ_self _) rest rfl)

theorem wide_ahead {ahead behind rest : List Char} {char : Char}
    (wide : ∀ char ∈ ahead, ¬char.toNat < 0x80) (small : char.toNat < 0x80)
    (same : ahead ++ behind = char :: rest) : ahead = [] := by
  cases ahead with
  | nil => rfl
  | cons first ahead =>
    rw [List.cons_append] at same
    rw [(List.cons.inj same).1] at wide
    exact absurd small (wide char List.mem_cons_self)

/-- Whatever wide characters stand before the loop's output, it is the translation only if there
are none, no nested braces and no plain character outside ASCII. -/
theorem flat_of_translateFrom (chars : List Char) : ∀ ahead : List Char,
    (∀ char ∈ ahead, ¬char.toNat < 0x80) →
    ahead ++ translateFrom (chars.flatMap String.utf8EncodeChar) = mounted chars →
    ahead = [] ∧ Flat chars ∧ ∀ char, .plain char ∈ pieces chars → char.toNat < 0x80 := by
  induction chars using brace_induction with
  | nil =>
    intro ahead _ same
    rw [List.flatMap_nil, translateFrom, List.append_nil] at same
    refine ⟨by rw [same, mounted, pieces, List.flatMap_nil], ?_, ?_⟩
    · intro before name behind empty
      simp at empty
    · intro char member
      rw [pieces] at member
      contradiction
  | plain char rest plain ih =>
    intro ahead wide same
    rw [translateFrom_plain plain, mounted_plain plain] at same
    by_cases small : char.toNat < 0x80
    · have none := wide_ahead wide small same
      subst none
      rw [asChar_ascii small] at same
      obtain ⟨_, flat, ascii⟩ := ih [] wide (List.cons.inj same).2
      refine ⟨rfl, flat_cons.mpr ⟨fun opens => absurd opens plain, flat⟩, ?_⟩
      intro other member
      rw [pieces_plain plain] at member
      obtain head | tail := List.mem_cons.mp member
      · exact Piece.plain.inj head ▸ small
      · exact ascii other tail
    · -- one character of the translation against two or more: the rest stays ahead for good
      exfalso
      obtain ⟨more, spelled⟩ := asChar_wide small
      cases all : ahead ++ (String.utf8EncodeChar char).map asChar with
      | nil =>
        rw [(List.append_eq_nil_iff.mp all).2] at more
        simp at more
      | cons first left =>
        have wider : ∀ other ∈ first :: left, ¬other.toNat < 0x80 := by
          rw [← all]
          intro other member
          exact (List.mem_append.mp member).elim (wide other) (spelled other)
        rw [← List.append_assoc, all] at same
        have next := ih left (fun other member => wider other (List.mem_cons_of_mem _ member))
          (List.cons.inj same).2
        have counted := congrArg List.length all
        rw [next.1, List.length_append, List.length_singleton] at counted
        omega
  | opened rest unclosed ih =>
    intro ahead wide same
    rw [translateFrom_open unclosed, mounted_unclosed unclosed] at same
    have none := wide_ahead wide (by decide) same
    subst none
    obtain ⟨_, flat, ascii⟩ := ih [] wide (List.cons.inj same).2
    refine ⟨rfl, flat_cons.mpr ⟨fun _ => ?_, flat⟩, ?_⟩
    · rintro name behind rfl
      exact absurd (by simp) unclosed
    · intro other member
      rw [pieces_unclosed unclosed] at member
      obtain head | tail := List.mem_cons.mp member
      · rw [Piece.plain.inj head]
        decide
      · exact ascii other tail
  | closed name rest away ih =>
    intro ahead wide same
    rw [translateFrom_closed away] at same
    obtain ⟨head, tail, form, colon⟩ := axumForm_head name
    have small : head.toNat < 0x80 := by
      obtain rfl | rfl := colon <;> decide
    by_cases nested : '\x7b' ∈ name
    · -- the loop takes the outer brace for the placeholder's
      exfalso
      have stays : mounted ('\x7b' :: (name ++ '\x7d' :: rest)) =
          '\x7b' :: mounted (name ++ '\x7d' :: rest) := by
        rw [mounted, pieces_open]
        · rfl
        · intro other behind split
          by_cases early : '\x7d' ∈ other
          · exact .inr early
          · rw [← upToClose early behind, ← split, upToClose away]
            exact .inl nested
      rw [List.cons_append, stays] at same
      have none := wide_ahead wide (by decide) same
      rw [none, form] at same
      have brace := (List.cons.inj same).1
      obtain rfl | rfl := colon <;> exact absurd brace (by decide)
    · rw [mounted_closed nested away] at same
      have none : ahead = [] := by
        apply wide_ahead wide small
        rw [same, form, List.cons_append]
      subst none
      obtain ⟨_, flat, ascii⟩ := ih [] wide (List.append_cancel_left same)
      refine ⟨rfl, (flat_closed nested away).mpr flat, ?_⟩
      intro other member
      rw [pieces_closed nested away] at member
      obtain head | tail := List.mem_cons.mp member
      · cases head
      · exact ascii other tail

theorem flat_name {name rest : List Char} (away : '\x7d' ∉ name)
    (flat : Flat ('\x7b' :: name ++ '\x7d' :: rest)) : '\x7b' ∉ name :=
  flat [] name rest rfl away

theorem translateFrom_flat (chars : List Char) : Flat chars →
    (∀ char, .plain char ∈ pieces chars → char.toNat < 0x80) →
    translateFrom (chars.flatMap String.utf8EncodeChar) = mounted chars := by
  induction chars using brace_induction with
  | nil =>
    intro _ _
    rw [List.flatMap_nil, translateFrom, mounted, pieces, List.flatMap_nil]
  | plain char rest plain ih =>
    intro flat ascii
    rw [pieces_plain plain] at ascii
    rw [translateFrom_plain plain, mounted_plain plain, asChar_ascii (ascii char (by simp)),
      ih (flat_cons.mp flat).2 fun other member => ascii other (List.mem_cons_of_mem _ member)]
    rfl
  | opened rest unclosed ih =>
    intro flat ascii
    rw [pieces_unclosed unclosed] at ascii
    rw [translateFrom_open unclosed, mounted_unclosed unclosed,
      ih (flat_cons.mp flat).2 fun other member => ascii other (List.mem_cons_of_mem _ member)]
  | closed name rest away ih =>
    intro flat ascii
    have inner := flat_name away flat
    rw [pieces_closed inner away] at ascii
    rw [translateFrom_closed away, mounted_closed inner away,
      ih ((flat_closed inner away).mp flat) fun other member =>
        ascii other (List.mem_cons_of_mem _ member)]

/-! ### The translation has no placeholder left -/

theorem mounted_no_close {chars : List Char} (unclosed : '\x7d' ∉ chars) :
    mounted chars = chars := by
  induction chars with
  | nil => rw [mounted, pieces, List.flatMap_nil]
  | cons char rest ih =>
    rw [List.mem_cons, not_or] at unclosed
    by_cases same : char = '\x7b'
    · rw [same, mounted_unclosed unclosed.2, ih unclosed.2]
    · rw [mounted_plain same, ih unclosed.2]

theorem pieces_append {front : List Char} (plain : '\x7b' ∉ front) (rest : List Char) :
    pieces (front ++ rest) = front.map .plain ++ pieces rest := by
  induction front with
  | nil => rfl
  | cons char front ih =>
    rw [List.mem_cons, not_or] at plain
    rw [List.cons_append, pieces_plain (Ne.symm plain.1), ih plain.2]
    rfl

theorem pieces_mounted (chars : List Char) : Flat chars →
    Flat (mounted chars) ∧ pieces (mounted chars) = (mounted chars).map .plain := by
  induction chars using brace_induction with
  | nil =>
    intro flat
    rw [mounted, pieces, List.flatMap_nil]
    exact ⟨flat, pieces.eq_1⟩
  | plain char rest plain ih =>
    intro flat
    obtain ⟨still, whole⟩ := ih (flat_cons.mp flat).2
    rw [mounted_plain plain, pieces_plain plain, whole]
    exact ⟨flat_cons.mpr ⟨fun opens => absurd opens plain, still⟩, rfl⟩
  | opened rest unclosed ih =>
    intro flat
    obtain ⟨still, whole⟩ := ih (flat_cons.mp flat).2
    have same := mounted_no_close unclosed
    rw [mounted_unclosed unclosed, pieces_unclosed (same.symm ▸ unclosed), whole]
    refine ⟨flat_cons.mpr ⟨fun _ => ?_, still⟩, rfl⟩
    rw [same]
    rintro name behind rfl
    exact absurd (by simp) unclosed
  | closed name rest away ih =>
    intro flat
    have inner := flat_name away flat
    obtain ⟨still, whole⟩ := ih ((flat_closed inner away).mp flat)
    have plain := open_not_mem_axumForm inner
    rw [mounted_closed inner away, pieces_append plain, whole, List.map_append]
    exact ⟨(flat_append plain).mpr still, rfl⟩

theorem mounted_of_pieces {chars : List Char} (whole : pieces chars = chars.map .plain) :
    mounted chars = chars := by
  rw [mounted, whole, List.flatMap_map]
  exact List.flatMap_singleton' chars

/-! ### When a path is mounted as it is to be -/

theorem translatePath_eq_iff (path : String) (chars : List Char) :
    translatePath path = String.ofList chars ↔
      translateFrom (path.toList.flatMap String.utf8EncodeChar) = chars :=
  String.ofList_inj

theorem mounts_iff (path : String) : Mounts path ↔ Translatable path := by
  constructor
  · rintro ⟨first, again⟩
    have once := (translatePath_eq_iff _ _).mp first
    obtain ⟨_, flat, _⟩ := flat_of_translateFrom path.toList [] (by simp) once
    obtain ⟨_, whole⟩ := pieces_mounted path.toList flat
    have same := mounted_of_pieces whole
    rw [first, translatePath_eq_iff, String.toList_ofList] at again
    obtain ⟨_, _, ascii⟩ := flat_of_translateFrom _ [] (by simp) (again.trans same.symm)
    refine ⟨flat, fun piece member char inside => ascii char ?_⟩
    rw [whole]
    exact List.mem_map_of_mem (List.mem_flatMap.mpr ⟨piece, member, inside⟩)
  · rintro ⟨flat, ascii⟩
    have first : translatePath path = String.ofList (mounted path.toList) := by
      rw [translatePath_eq_iff]
      exact translateFrom_flat _ flat fun char member =>
        ascii _ member char (List.mem_singleton_self char)
    obtain ⟨still, whole⟩ := pieces_mounted path.toList flat
    refine ⟨first, ?_⟩
    rw [first, translatePath_eq_iff, String.toList_ofList, translateFrom_flat _ still]
    · exact mounted_of_pieces whole
    · intro char member
      rw [whole] at member
      obtain ⟨other, inside, same⟩ := List.mem_map.mp member
      obtain ⟨piece, held, shown⟩ := List.mem_flatMap.mp inside
      exact Piece.plain.inj same ▸ ascii piece held other shown

/-- The two bytes of the letter become two letters. -/
theorem accent_not_mounted : ¬Mounts "/é/_reflect" := by
  rintro ⟨first, _⟩
  have once := (translatePath_eq_iff _ _).mp first
  obtain ⟨_, _, ascii⟩ := flat_of_translateFrom _ [] (by simp) once
  have shown := pieces_append (show '\x7b' ∉ "/é/_reflect".toList by decide) []
  rw [List.append_nil] at shown
  rw [shown] at ascii
  exact absurd (ascii 'é' (List.mem_append_left _ (List.mem_map_of_mem (by decide)))) (by decide)

end Fantastic.Rust
