import Mathlib.Algebra.BigOperators.Group.List.Basic
import Mathlib.Algebra.GroupWithZero.Nat
import Mathlib.Data.Nat.Init

/-!
# What a terminal view acknowledges

`ackChars` of `terminal_view.ts`. The view counts the UTF-16 code units that xterm has parsed
and sends one `ack` for each `ACK_SIZE` of them; a rest smaller than that stays with it.
-/

namespace Fantastic.Ts

/-- `ACK_SIZE`. -/
def ackSize : Nat := 5000

/-- `text.length`. -/
def unitLength (text : String) : Nat :=
  (text.toList.map fun char => if char.toNat < 65536 then 1 else 2).sum

theorem length_le_unitLength (text : String) : text.length ≤ unitLength text := by
  unfold unitLength
  rw [← String.length_toList]
  induction text.toList with
  | nil => exact Nat.le_refl 0
  | cons char rest ih =>
    rw [List.map_cons, List.sum_cons, List.length_cons]
    split <;> omega

/-- The `while` loop of `ackChars`: what is left unsent, and the acks. -/
def sendAcks {size : Nat} (positive : 0 < size) (unsentAck : Nat) : Nat × Nat :=
  if size ≤ unsentAck then
    let rest := sendAcks positive (unsentAck - size)
    (rest.1, rest.2 + 1)
  else (unsentAck, 0)
termination_by unsentAck
decreasing_by omega

theorem sendAcks_eq {size : Nat} (positive : 0 < size) (unsentAck : Nat) :
    sendAcks positive unsentAck = (unsentAck % size, unsentAck / size) := by
  fun_induction sendAcks positive unsentAck with
  | case1 unsentAck enough rest ih =>
    rw [show rest = _ from ih, Nat.mod_eq_sub_mod enough, Nat.div_eq_sub_div positive enough]
  | case2 unsentAck few =>
    have small : unsentAck < size := Nat.lt_of_not_le few
    rw [Nat.mod_eq_of_lt small, Nat.div_eq_of_lt small]

theorem ackSize_pos : 0 < ackSize := by
  decide

/-- Between two callbacks less than one ack is unsent. -/
structure TerminalView where
  unsentAck : Nat
  small : unsentAck < ackSize

def TerminalView.fresh : TerminalView where
  unsentAck := 0
  small := ackSize_pos

/-- `ackChars`: the view, and how many acks it sends. -/
def TerminalView.ackChars (view : TerminalView) (count : Nat) : TerminalView × Nat :=
  ({ unsentAck := (sendAcks ackSize_pos (view.unsentAck + count)).1
     small := by
      rw [sendAcks_eq]
      exact Nat.mod_lt _ ackSize_pos },
    (sendAcks ackSize_pos (view.unsentAck + count)).2)

/-- What is acked and what is left add up to what was parsed. -/
theorem TerminalView.ackChars_total (view : TerminalView) (count : Nat) :
    ackSize * (view.ackChars count).2 + (view.ackChars count).1.unsentAck =
      view.unsentAck + count := by
  unfold TerminalView.ackChars
  dsimp only
  rw [sendAcks_eq]
  exact Nat.div_add_mod _ _

end Fantastic.Ts
