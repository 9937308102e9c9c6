import Fantastic.Foundation.OrderedDict

/-!
# Payload values

The values that travel in payloads, records and frames: JSON, with integers and
finite floats kept apart as Python and Rust keep them, plus raw bytes for the one
body a binary frame may carry. A finite float is its exact dyadic value.
-/

namespace Fantastic

inductive Value where
  | null
  | bool (value : Bool)
  | int (value : Int)
  | float (value : Dyadic)
  | str (text : String)
  | bytes (data : List UInt8)
  | list (items : List Value)
  | dict (members : List (String × Value))

namespace Value

mutual

def beq : Value → Value → Bool
  | .null, .null => true
  | .bool left, .bool right => decide (left = right)
  | .int left, .int right => decide (left = right)
  | .float left, .float right => decide (left = right)
  | .str left, .str right => decide (left = right)
  | .bytes left, .bytes right => decide (left = right)
  | .list left, .list right => beqItems left right
  | .dict left, .dict right => beqMembers left right
  | _, _ => false

def beqItems : List Value → List Value → Bool
  | [], [] => true
  | left :: leftRest, right :: rightRest => beq left right && beqItems leftRest rightRest
  | _, _ => false

def beqMembers : List (String × Value) → List (String × Value) → Bool
  | [], [] => true
  | (leftKey, left) :: leftRest, (rightKey, right) :: rightRest =>
    decide (leftKey = rightKey) && (beq left right && beqMembers leftRest rightRest)
  | _, _ => false

end

mutual

theorem beq_iff (left right : Value) : beq left right = true ↔ left = right := by
  cases left <;> cases right <;> simp [beq, beq_items_iff, beq_members_iff]

theorem beq_items_iff (left right : List Value) : beqItems left right = true ↔ left = right := by
  cases left with
  | nil => cases right <;> simp [beqItems]
  | cons head rest =>
    cases right with
    | nil => simp [beqItems]
    | cons other others => simp [beqItems, beq_iff head other, beq_items_iff rest others]

theorem beq_members_iff (left right : List (String × Value)) :
    beqMembers left right = true ↔ left = right := by
  cases left with
  | nil => cases right <;> simp [beqMembers]
  | cons head rest =>
    rcases head with ⟨key, item⟩
    cases right with
    | nil => simp [beqMembers]
    | cons other others =>
      rcases other with ⟨otherKey, otherItem⟩
      simp [beqMembers, beq_iff item otherItem, beq_members_iff rest others, and_assoc]

end

instance : DecidableEq Value := fun left right =>
  decidable_of_iff (beq left right = true) (beq_iff left right)

instance : Inhabited Value := ⟨.null⟩

mutual

/-- No object names a key twice. -/
def Distinct : Value → Prop
  | .list items => DistinctItems items
  | .dict members => (members.map Prod.fst).Nodup ∧ DistinctMembers members
  | _ => True

def DistinctItems : List Value → Prop
  | [] => True
  | item :: items => Distinct item ∧ DistinctItems items

def DistinctMembers : List (String × Value) → Prop
  | [] => True
  | (_, item) :: members => Distinct item ∧ DistinctMembers members

end

end Value

/-- A dictionary with string keys: a payload, a record, an agent's meta. -/
abbrev Dict := OrderedDict String Value

end Fantastic
