import Fantastic.Foundation.Value

/-!
# Places in a value

The place of a part of a value is the list of keys and indices on the way down to it. Another
part can be put there, and nothing else changes. A walk depth first finds the place of the
first raw bytes in a value, and a path spells it with dots.
-/

namespace Fantastic.Value

/-- The keys on the way from `whole` to `part`, and the value with something else in its
place. -/
inductive Place : List String → Value → Value → (Value → Value) → Prop
  | here (part : Value) : Place [] part part id
  | item {parts : List String} {part item : Value} {fill : Value → Value}
      (before after : List Value) (below : Place parts part item fill) :
      Place (toString before.length :: parts) part (.list (before ++ item :: after))
        fun other => .list (before ++ fill other :: after)
  | member {parts : List String} {part item : Value} {fill : Value → Value} {key : String}
      {before after : List (String × Value)} (apart : key ∉ (before ++ after).map Prod.fst)
      (below : Place parts part item fill) :
      Place (key :: parts) part (.dict (before ++ (key, item) :: after))
        fun other => .dict (before ++ (key, fill other) :: after)

theorem Place.fill_eq {parts : List String} {part whole : Value} {fill : Value → Value}
    (place : Place parts part whole fill) : fill part = whole := by
  induction place with
  | here => rfl
  | item before after _ ih => exact congrArg (fun item => Value.list (before ++ item :: after)) ih
  | @member _ _ _ _ key before after _ _ ih =>
    exact congrArg (fun item => Value.dict (before ++ (key, item) :: after)) ih

/-- Something else in the place of bytes leaves a dictionary its keys. -/
theorem Place.emptied {parts : List String} {data : List UInt8} {members : List (String × Value)}
    {fill : Value → Value} (place : Place parts (.bytes data) (.dict members) fill)
    (other : Value) :
    parts ≠ [] ∧ ∃ head, fill other = .dict head ∧ head.map Prod.fst = members.map Prod.fst := by
  cases place with
  | member => exact ⟨List.cons_ne_nil _ _, _, rfl, by simp⟩

theorem Place.refilled {parts : List String} {part whole : Value} {fill : Value → Value}
    (place : Place parts part whole fill) (other : Value) :
    Place parts other (fill other) fill := by
  induction place with
  | here => exact .here other
  | item before after _ ih => exact .item before after ih
  | member apart _ ih => exact .member apart ih

theorem Place.injective {parts : List String} {part whole : Value} {fill : Value → Value}
    (place : Place parts part whole fill) : Function.Injective fill := by
  induction place with
  | here => exact Function.injective_id
  | item before after _ ih =>
    intro one two same
    have rest := List.append_cancel_left (Value.list.inj same)
    exact ih (List.cons.inj rest).1
  | member _ _ ih =>
    intro one two same
    have rest := List.append_cancel_left (Value.dict.inj same)
    exact ih (Prod.mk.inj (List.cons.inj rest).1).2

/-! ### Raw bytes -/

mutual

/-- The first raw bytes that a walk depth first meets, and the way to them. -/
def findBlob : Value → Option (List String × List UInt8)
  | .bytes data => some ([], data)
  | .list items => findBlobItem 0 items
  | .dict members => findBlobMember members
  | _ => none

def findBlobItem (index : Nat) : List Value → Option (List String × List UInt8)
  | [] => none
  | item :: items =>
    match findBlob item with
    | some (parts, data) => some (toString index :: parts, data)
    | none => findBlobItem (index + 1) items

def findBlobMember : List (String × Value) → Option (List String × List UInt8)
  | [] => none
  | (key, item) :: members =>
    match findBlob item with
    | some (parts, data) => some (key :: parts, data)
    | none => findBlobMember members

end

mutual

/-- The way that the walk went leads to the bytes, and to nothing else. -/
theorem place_of_findBlob {parts : List String} {data : List UInt8} :
    ∀ value : Value, value.Distinct → findBlob value = some (parts, data) →
      ∃ fill, Place parts (.bytes data) value fill
  | .null, _, found | .bool _, _, found | .int _, _, found | .float _, _, found
  | .str _, _, found => nomatch found
  | .bytes _, _, found => by
    cases found
    exact ⟨id, .here _⟩
  | .list items, distinct, found => by
    obtain ⟨before, item, after, rest, fill, rfl, rfl, below⟩ :=
      place_of_findBlobItem 0 items distinct found
    rw [Nat.zero_add]
    exact ⟨_, .item before after below⟩
  | .dict members, distinct, found => by
    obtain ⟨before, key, item, after, rest, fill, rfl, rfl, below⟩ :=
      place_of_findBlobMember members distinct.2 found
    have keys := distinct.1
    rw [List.map_append, List.map_cons, List.nodup_middle, List.nodup_cons, ← List.map_append] at keys
    exact ⟨_, .member keys.1 below⟩

theorem place_of_findBlobItem {parts : List String} {data : List UInt8} (index : Nat) :
    ∀ items : List Value, DistinctItems items → findBlobItem index items = some (parts, data) →
      ∃ before item after rest fill, items = before ++ item :: after ∧
        parts = toString (index + before.length) :: rest ∧ Place rest (.bytes data) item fill
  | [], _, found => nomatch found
  | item :: items, distinct, found => by
    rw [findBlobItem] at found
    split at found
    case h_1 inside =>
      cases found
      obtain ⟨fill, below⟩ := place_of_findBlob item distinct.1 inside
      exact ⟨[], item, items, _, fill, rfl, rfl, below⟩
    case h_2 =>
      obtain ⟨before, other, after, rest, fill, rfl, rfl, below⟩ :=
        place_of_findBlobItem (index + 1) items distinct.2 found
      refine ⟨item :: before, other, after, rest, fill, rfl, ?_, below⟩
      rw [List.length_cons, Nat.add_assoc, Nat.add_comm 1]

theorem place_of_findBlobMember {parts : List String} {data : List UInt8} :
    ∀ members : List (String × Value), DistinctMembers members →
      findBlobMember members = some (parts, data) →
      ∃ before key item after rest fill, members = before ++ (key, item) :: after ∧
        parts = key :: rest ∧ Place rest (.bytes data) item fill
  | [], _, found => nomatch found
  | (key, item) :: members, distinct, found => by
    rw [findBlobMember] at found
    split at found
    case h_1 inside =>
      cases found
      obtain ⟨fill, below⟩ := place_of_findBlob item distinct.1 inside
      exact ⟨[], key, item, members, _, fill, rfl, rfl, below⟩
    case h_2 =>
      obtain ⟨before, name, other, after, rest, fill, rfl, rfl, below⟩ :=
        place_of_findBlobMember members distinct.2 found
      exact ⟨(key, item) :: before, name, other, after, rest, fill, rfl, rfl, below⟩

end

/-! ### Dotted paths -/

def joined (pre part : String) : String :=
  if pre = "" then part else pre ++ "." ++ part

/-- A path as a text, behind what is spelled already. -/
def spelled (pre : String) (parts : List String) : String :=
  parts.foldl joined pre

/-- A part of a path that its dotted spelling keeps apart from the others. -/
def PlainPart (part : String) : Prop :=
  part ≠ "" ∧ '.' ∉ part.toList

theorem spelled_toList {pre : String} (some' : pre ≠ "") (parts : List String) :
    (spelled pre parts).toList = ['.'].intercalate (pre.toList :: parts.map String.toList) := by
  induction parts generalizing pre with
  | nil => simp [spelled]
  | cons part parts ih =>
    have longer : pre ++ "." ++ part ≠ "" := by simp
    have rest := ih longer
    rw [spelled, List.foldl_cons, joined, if_neg some', ← spelled, rest]
    cases parts <;> simp [List.intercalate_cons_cons]

/-- Splitting the spelling at its dots gives the parts back. -/
theorem splitOn_spelled {parts : List String} (some' : parts ≠ [])
    (plain : ∀ part ∈ parts, PlainPart part) :
    ((spelled "" parts).toList.splitOn '.').map String.ofList = parts := by
  cases parts with
  | nil => exact absurd rfl some'
  | cons first rest =>
    have whole : spelled "" (first :: rest) = spelled first rest := rfl
    rw [whole, spelled_toList (plain first List.mem_cons_self).1, ← List.map_cons (f := String.toList),
      List.splitOn_intercalate]
    · simp
    · intro chars member
      obtain ⟨part, listed, rfl⟩ := List.mem_map.mp member
      exact (plain part listed).2
    · simp

end Fantastic.Value
