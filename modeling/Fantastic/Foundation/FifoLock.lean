import Mathlib.Data.List.Nodup

/-!
# A lock that is handed over

A lock with a line of threads. A release gives the lock to the oldest thread in line without
setting it free in between. `Fair` is what holds of the lock, its holder, and the threads that
asked for it and got it so far.
-/

namespace Fantastic

structure FifoLock (Thread : Type) where
  locked : Bool
  waiters : List Thread

namespace FifoLock

variable {Thread : Type} {lock : FifoLock Thread} {holder : Option Thread}
variable {asked granted : List Thread} {thread : Thread}

def free : FifoLock Thread where
  locked := false
  waiters := []

/-- The lock, and whether the thread has it at once. -/
def acquire (lock : FifoLock Thread) (thread : Thread) : FifoLock Thread × Bool :=
  if lock.locked then ({ lock with waiters := lock.waiters ++ [thread] }, false)
  else ({ lock with locked := true }, true)

/-- The lock, and the thread that has it now. -/
def release (lock : FifoLock Thread) : FifoLock Thread × Option Thread :=
  match lock.waiters with
  | [] => ({ lock with locked := false }, none)
  | next :: rest => ({ lock with waiters := rest }, some next)

theorem acquire_locked (locked : lock.locked = true) :
    lock.acquire thread = ({ lock with waiters := lock.waiters ++ [thread] }, false) :=
  if_pos locked

theorem acquire_free (locked : lock.locked = false) :
    lock.acquire thread = ({ lock with locked := true }, true) :=
  if_neg (by simp [locked])

theorem release_alone (line : lock.waiters = []) :
    lock.release = ({ lock with locked := false }, none) := by
  unfold release
  rw [line]

theorem release_next {rest : List Thread} (line : lock.waiters = thread :: rest) :
    lock.release = ({ lock with waiters := rest }, some thread) := by
  unfold release
  rw [line]

/-- Who got the lock and who is in line are, in this order, who asked for it. -/
structure Fair (lock : FifoLock Thread) (holder : Option Thread) (asked granted : List Thread) :
    Prop where
  locked : lock.locked = holder.isSome
  idle : holder = none → lock.waiters = []
  order : granted ++ lock.waiters = asked
  once : asked.Nodup
  held : ∀ thread, holder = some thread → thread ∈ granted

theorem free_fair : (free : FifoLock Thread).Fair none [] [] where
  locked := rfl
  idle := fun _ => rfl
  order := rfl
  once := List.nodup_nil
  held := fun _ absurd => (Option.some_ne_none _ absurd.symm).elim

namespace Fair

theorem locked_eq_false (fair : lock.Fair none asked granted) : lock.locked = false :=
  fair.locked

theorem locked_eq_true (fair : lock.Fair (some thread) asked granted) : lock.locked = true :=
  fair.locked

theorem nodup_append (fair : lock.Fair holder asked granted) (new : thread ∉ asked) :
    (asked ++ [thread]).Nodup := by
  rw [List.nodup_append_comm]
  exact List.nodup_cons.mpr ⟨new, fair.once⟩

/-- A thread asks while the lock is free. -/
theorem take (fair : lock.Fair none asked granted) (new : thread ∉ asked) :
    (lock.acquire thread).1.Fair (some thread) (asked ++ [thread]) (granted ++ [thread]) := by
  have idle := fair.idle rfl
  have order := fair.order
  rw [idle, List.append_nil] at order
  rw [acquire_free fair.locked_eq_false]
  constructor
  · rfl
  · intro absurd
    exact (Option.some_ne_none _ absurd).elim
  · simp [idle, order]
  · exact fair.nodup_append new
  · intro other same
    rw [← Option.some.inj same]
    simp

/-- A thread asks while another holds the lock. -/
theorem wait {other : Thread} (fair : lock.Fair (some other) asked granted)
    (new : thread ∉ asked) :
    (lock.acquire thread).1.Fair (some other) (asked ++ [thread]) granted := by
  rw [acquire_locked fair.locked_eq_true]
  constructor
  · exact fair.locked
  · intro absurd
    exact (Option.some_ne_none _ absurd).elim
  · simp [← fair.order]
  · exact fair.nodup_append new
  · exact fair.held

/-- The holder lets go. -/
theorem release (fair : lock.Fair (some thread) asked granted) :
    lock.release.1.Fair lock.release.2 asked (granted ++ lock.release.2.toList) := by
  have order := fair.order
  cases line : lock.waiters with
  | nil =>
    rw [line] at order
    rw [release_alone line]
    constructor
    · rfl
    · intro _
      exact line
    · simpa [line] using order
    · exact fair.once
    · intro other absurd
      exact (Option.some_ne_none _ absurd.symm).elim
  | cons next rest =>
    rw [line] at order
    rw [release_next line]
    constructor
    · exact fair.locked
    · intro absurd
      exact (Option.some_ne_none _ absurd).elim
    · simpa using order
    · exact fair.once
    · intro other same
      rw [← Option.some.inj same]
      simp

/-- A thread in line does not hold the lock. -/
theorem ne_of_waits (fair : lock.Fair (some thread) asked granted) {other : Thread}
    (waits : other ∈ lock.waiters) : other ≠ thread := by
  intro same
  have once := fair.once
  rw [← fair.order, List.nodup_append] at once
  exact once.2.2 thread (fair.held thread rfl) other waits same.symm

/-- The next holder is the oldest in line. -/
theorem mem_of_next (next : lock.release.2 = some thread) : thread ∈ lock.waiters := by
  cases line : lock.waiters with
  | nil =>
    rw [release_alone line] at next
    exact (Option.some_ne_none _ next.symm).elim
  | cons first rest =>
    rw [release_next line] at next
    rw [← Option.some.inj next]
    exact List.mem_cons_self

theorem mem_release_waiters (fair : lock.Fair holder asked granted) {other : Thread} :
    other ∈ lock.release.1.waiters ↔ other ∈ lock.waiters ∧ lock.release.2 ≠ some other := by
  have once := fair.once
  rw [← fair.order, List.nodup_append] at once
  have distinct := once.2.1
  cases line : lock.waiters with
  | nil => simp [release_alone line, line]
  | cons first rest =>
    rw [line] at distinct
    rw [release_next line]
    have apart := (List.nodup_cons.mp distinct).1
    simp only [List.mem_cons, ne_eq, Option.some.injEq]
    constructor
    · intro inside
      refine ⟨Or.inr inside, ?_⟩
      intro same
      exact apart (same ▸ inside)
    · intro outside
      cases outside.1 with
      | inl same => exact (outside.2 same.symm).elim
      | inr inside => exact inside

end Fair

end FifoLock

end Fantastic
