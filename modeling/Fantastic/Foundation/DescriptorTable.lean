/-!
# Descriptor numbers

The open descriptors of a process. A number stands for one owner at a time; once it is closed
any later open may get it again. Somebody who keeps a number past its close reaches its owner
or nothing only as long as the number is not opened for another.
-/

namespace Fantastic

/-- Who owns what a number stands for, if it is open. -/
def DescriptorTable (Owner : Type) : Type := Nat → Option Owner

namespace DescriptorTable

variable {Owner : Type}

def none : DescriptorTable Owner := fun _ => Option.none

def opened (table : DescriptorTable Owner) (fd : Nat) (owner : Owner) : DescriptorTable Owner :=
  fun number => if number = fd then some owner else table number

def closed (table : DescriptorTable Owner) (fd : Nat) : DescriptorTable Owner :=
  fun number => if number = fd then Option.none else table number

/-- The number is nobody else's. -/
def AtMost (table : DescriptorTable Owner) (fd : Nat) (owner : Owner) : Prop :=
  ∀ other, table fd = some other → other = owner

variable {table : DescriptorTable Owner} {fd number : Nat} {owner : Owner}

theorem opened_self : table.opened fd owner fd = some owner :=
  if_pos rfl

theorem opened_of_ne (other : number ≠ fd) : table.opened fd owner number = table number :=
  if_neg other

theorem closed_of_ne (other : number ≠ fd) : table.closed fd number = table number :=
  if_neg other

theorem AtMost.of_eq (found : table number = some owner) : table.AtMost number owner := by
  intro other same
  rw [found] at same
  exact (Option.some.inj same).symm

theorem AtMost.closed (only : table.AtMost number owner) (fd : Nat) :
    (table.closed fd).AtMost number owner := by
  intro other found
  unfold DescriptorTable.closed at found
  split at found
  case isTrue => exact absurd found.symm (Option.some_ne_none other)
  case isFalse => exact only other found

theorem AtMost.opened (only : table.AtMost number owner) (reused : number ≠ fd)
    (other : Owner) : (table.opened fd other).AtMost number owner := by
  intro found same
  rw [opened_of_ne reused] at same
  exact only found same

end DescriptorTable

end Fantastic
