import Fantastic.Foundation.JsonGrammar
import Fantastic.Swift.Snapshot
import Mathlib.Algebra.Group.Int.Defs
import Mathlib.Algebra.Group.Nat.Defs

/-!
# Decoding records

How `JSON` and `AgentRecord` are decoded (`JSONCodable.swift`, `AgentRecord.swift`). Foundation's
decoder stands at a tree it has parsed: an object lists its members in the order of `allKeys`, an
integer literal has any size, and `double` is the finite double nearest to one, if there is any.
-/

namespace Fantastic.Swift

open JsonGrammar (mapOf)

/-- The whole number a double is. -/
def wholeOf : Dyadic → Option Int
  | .zero => some 0
  | .ofOdd mantissa scale _ => if scale ≤ 0 then some (mantissa * 2 ^ (-scale).toNat) else none

theorem ofInt_wholeOf {number : Dyadic} {whole : Int} (same : wholeOf number = some whole) :
    Dyadic.ofInt whole = number := by
  cases number with
  | zero =>
    cases same
    rfl
  | ofOdd mantissa scale odd =>
    rw [wholeOf] at same
    split at same
    case isTrue low =>
      cases same
      rw [Dyadic.ofOdd_eq_ofIntWithPrec, Dyadic.ofInt, ← Int.shiftLeft_eq]
      have shifted := @Dyadic.ofIntWithPrec_shiftLeft_add mantissa scale (-scale).toNat
      have exact' : scale + ((-scale).toNat : Int) = 0 := by omega
      rw [exact'] at shifted
      exact shifted
    case isFalse => cases same

def InInt64 (number : Int) : Prop :=
  -(2 ^ 63) ≤ number ∧ number < 2 ^ 63

instance (number : Int) : Decidable (InInt64 number) :=
  inferInstanceAs (Decidable (_ ∧ _))

/-- `asString`. -/
def asText : Value → Option String
  | .str text => some text
  | _ => none

/-! ### Decoding -/

section Decoding

variable (double : Int → Option Dyadic)

/-- `decode(Int64.self)`, then `decode(Double.self)`. -/
def decodeNumber : Value → Option Value
  | .int number => if InInt64 number then some (.int number) else (double number).map .float
  | .float number =>
    match wholeOf number with
    | none => some (.float number)
    | some whole => if InInt64 whole then some (.int whole) else some (.float number)
  | _ => none

mutual

/-- `JSON.init(from:)`. -/
def decodeJson : Value → Option Value
  | .null => some .null
  | .bool value => some (.bool value)
  | .int number => decodeNumber double (.int number)
  | .float number => decodeNumber double (.float number)
  | .str text => some (.str text)
  | .bytes _ => none
  | .list items => (decodeItems items).map .list
  | .dict members => (decodeMembers members).map fun members => .dict (mapOf members).entries

def decodeItems : List Value → Option (List Value)
  | [] => some []
  | item :: items => do
      let item ← decodeJson item
      let items ← decodeItems items
      return item :: items

def decodeMembers : List (String × Value) → Option (List (String × Value))
  | [] => some []
  | (key, item) :: members => do
      let item ← decodeJson item
      let members ← decodeMembers members
      return (key, item) :: members

end

/-- `decodeIfPresent(String.self)` at a key that is there. -/
def decodeText : Value → Option (Option String)
  | .null => some none
  | .str text => some (some text)
  | _ => none

/-- The variables of `AgentRecord.init(from:)`. -/
structure Fields where
  id : Option String
  handlerModule : Option String
  parentId : Option String
  metadata : Dict

namespace Fields

def empty : Fields where
  id := none
  handlerModule := none
  parentId := none
  metadata := .empty

/-- One round of the loop over `allKeys`. -/
def take (fields : Fields) (key : String) (value : Value) : Option Fields :=
  if key = "id" then
    match value with
    | .str text => some { fields with id := some text }
    | _ => none
  else if key = "handler_module" then
    (decodeText value).map fun text => { fields with handlerModule := text }
  else if key = "parent_id" then
    (decodeText value).map fun text => { fields with parentId := text }
  else
    (decodeJson double value).map fun item =>
      { fields with metadata := fields.metadata.insert key item }

end Fields

/-- `AgentRecord.init(from:)`. -/
def AgentRecord.decode : Value → Option AgentRecord
  | .dict members => do
      let fields ← members.foldlM
        (fun (fields : Fields) entry => fields.take double entry.1 entry.2) Fields.empty
      let id ← fields.id
      return {
        id := id
        handlerModule := fields.handlerModule
        parentId := fields.parentId
        metadata := fields.metadata }
  | _ => none

end Decoding

end Fantastic.Swift
