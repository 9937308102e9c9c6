import Fantastic.Foundation.OrderedDict

/-!
# Tables that describe one tree

Nodes are numbers into a heap; a registry maps keys to nodes, every node names its parent's
key and lists its children, and one cell holds the root. The four tables agree when they are
a `Tree`: references grow from parent to child, so every chain of parents ends.
-/

namespace Fantastic.NodeTables

structure Node (Key Data : Type*) where
  key : Key
  parent : Option Key
  children : OrderedDict Key Nat
  data : Data

structure Tables (Key Data : Type*) where
  heap : Nat → Node Key Data
  allocated : Nat
  registry : OrderedDict Key Nat
  root : Option Nat

variable {Key Data : Type*} [DecidableEq Key]

/-- The four tables agree. -/
structure Tables.Tree (tables : Tables Key Data) : Prop where
  rooted : ∃ root, tables.root = some root ∧
    tables.registry.get? (tables.heap root).key = some root ∧ (tables.heap root).parent = none
  registered : ∀ {key ref}, tables.registry.get? key = some ref →
    (tables.heap ref).key = key ∧ ref < tables.allocated
  hung : ∀ {key ref}, tables.registry.get? key = some ref → tables.root ≠ some ref →
    ∃ upper above, (tables.heap ref).parent = some upper ∧
      tables.registry.get? upper = some above ∧
      (tables.heap above).children.get? key = some ref ∧ above < ref
  listed : ∀ {upper above key ref}, tables.registry.get? upper = some above →
    (tables.heap above).children.get? key = some ref →
    tables.registry.get? key = some ref ∧ (tables.heap ref).parent = some upper

end Fantastic.NodeTables
