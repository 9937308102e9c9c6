import Mathlib.Data.List.Infix
import Mathlib.Logic.Function.Basic

/-!
# The workdir lock of the Swift kernel

`Lock.swift`, one file-system call at a time, for any number of processes. A lock is held on an
inode, by whoever got `flock` on an open file of it; processes find the inode through a name, and
`release` takes the name away after it has unlocked. What a process reads of another one
(`kill(pid, 0)`) and whether a write is complete is decided outside.
-/

namespace Fantastic.Swift.WorkdirLock

/-- Where a call of `acquire` or `release` stands. -/
inductive Call where
  | idle
  /-- The lock file is open; `flock` is next. -/
  | opened (inode : Nat)
  /-- `flock` failed; the file is to be closed. -/
  | blocked (inode : Nat)
  | refused
  /-- The file named this pid. -/
  | suspicious (pid : Int)
  /-- That process is dead; the file is to be opened again. -/
  | stale
  | reopened (inode : Nat)
  | beaten (inode : Nat)
  /-- `fileDescriptor` is set; truncating and writing are to come. -/
  | locked
  | truncated
  /-- `release` has unlocked. -/
  | unlocked (inode : Nat)
  | closed
  deriving DecidableEq

/-- A `WorkdirLock`. `acquired` is true from the return of `acquire` to the call of `release`. -/
structure Client where
  fileDescriptor : Option Nat
  call : Call
  acquired : Bool

def Client.new : Client where
  fileDescriptor := none
  call := .idle
  acquired := false

/-- The clients, the name `lock.json`, and of every inode who holds its lock and the pid that can
be read from it. -/
structure World where
  clients : Nat → Client
  name : Option Nat
  inodes : Nat
  holder : Nat → Option Nat
  content : Nat → Option Int

inductive Move where
  | open
  | openFails
  | flock
  | flockFails
  | close
  | read
  | kill (alive : Bool)
  | truncate
  | write (complete : Bool)
  | unlock
  | unlink
  | exit

namespace World

def put (world : World) (process : Nat) (client : Client) : World :=
  { world with clients := Function.update world.clients process client }

/-- `open(path, O_RDWR | O_CREAT)`. -/
def openOrCreate (world : World) : World × Nat :=
  match world.name with
  | some inode => (world, inode)
  | none => ({ world with name := some world.inodes, inodes := world.inodes + 1 }, world.inodes)

def store (world : World) (inode : Nat) (pid : Option Int) : World :=
  { world with content := Function.update world.content inode pid }

/-- The exclusive lock of an inode nobody holds. -/
def lock (world : World) (inode process : Nat) : World :=
  { world with holder := Function.update world.holder inode (some process) }

/-- `LOCK_UN` gives up the own lock and no other. -/
def unlock (world : World) (inode process : Nat) : World :=
  { world with
    holder := fun other =>
      if other = inode ∧ world.holder other = some process then none else world.holder other }

/-- `readExistingPid`. -/
def readExistingPid (world : World) : Option Int :=
  world.name.bind world.content

/-- `flock(fd, LOCK_EX | LOCK_NB)` on the way of `acquire`. -/
def tryLock (world : World) (process inode : Nat) (failed : Call) : World :=
  if world.holder inode = none then
    (world.lock inode process).put process
      { world.clients process with fileDescriptor := some inode, call := .locked }
  else world.put process { world.clients process with call := failed }

/-- One call of one process. A move that does not fit where the process stands changes nothing. -/
def step (world : World) (process : Nat) (move : Move) : World :=
  let client := world.clients process
  match move, client.call with
  | .open, .idle =>
    let (made, inode) := world.openOrCreate
    made.put process { client with call := .opened inode }
  | .open, .stale =>
    let (made, inode) := world.openOrCreate
    (made.store inode none).put process { client with call := .reopened inode }
  | .openFails, .stale => world.put process { client with call := .idle }
  | .flock, .opened inode => world.tryLock process inode (.blocked inode)
  | .flock, .reopened inode => world.tryLock process inode (.beaten inode)
  | .flockFails, .opened inode => world.put process { client with call := .blocked inode }
  | .flockFails, .reopened inode => world.put process { client with call := .beaten inode }
  | .close, .blocked _ => world.put process { client with call := .refused }
  | .close, .beaten _ => world.put process { client with call := .idle }
  | .close, .unlocked _ =>
    world.put process { fileDescriptor := none, call := .closed, acquired := false }
  | .read, .refused =>
    match world.readExistingPid with
    | some pid =>
      world.put process { client with call := if 0 < pid then .suspicious pid else .idle }
    | none => world.put process { client with call := .idle }
  | .kill alive, .suspicious _ =>
    world.put process { client with call := if alive then .idle else .stale }
  | .truncate, .locked =>
    match client.fileDescriptor with
    | some inode => (world.store inode none).put process { client with call := .truncated }
    | none => world
  | .write complete, .truncated =>
    match client.fileDescriptor with
    | some inode =>
      if complete then
        (world.store inode (some process)).put process
          { client with call := .idle, acquired := true }
      else world.put process { client with call := .idle }
    | none => world
  | .unlock, .idle =>
    match client.fileDescriptor with
    | some inode =>
      (world.unlock inode process).put process
        { client with call := .unlocked inode, acquired := false }
    | none => world
  | .unlink, .closed =>
    { world with name := none }.put process { client with call := .idle }
  | .exit, _ =>
    { world with
      holder := fun inode =>
        if world.holder inode = some process then none else world.holder inode }.put process .new
  | _, _ => world

def run (world : World) (steps : List (Nat × Move)) : World :=
  steps.foldl (fun current move => current.step move.1 move.2) world

/-- No process has called yet; a lock file may be there, with any text in it. -/
structure Quiet (world : World) : Prop where
  clients : ∀ process, world.clients process = .new
  free : ∀ inode, world.holder inode = none

end World

/-- Past a successful `flock` of an `acquire` that has not failed and was not released. -/
def Engaged (client : Client) : Prop :=
  client.acquired = true ∨ client.call = .locked ∨ client.call = .truncated

/-- At most one process holds the lock. -/
def Exclusive (world : World) : Prop :=
  ∀ first second, (world.clients first).acquired = true → (world.clients second).acquired = true →
    first = second

/-- `flock` succeeds on the file that still has the name, and the name is not taken from a file
somebody else has locked. -/
def Guarded (world : World) (process : Nat) : Move → Prop
  | .flock => ∀ inode, (world.clients process).call = .opened inode ∨
      (world.clients process).call = .reopened inode →
        world.holder inode = none → world.name = some inode
  | .unlink => (world.clients process).call = .closed → ∀ other inode,
      Engaged (world.clients other) → (world.clients other).fileDescriptor = some inode →
        world.name ≠ some inode
  | _ => True

def GuardedRun : World → List (Nat × Move) → Prop
  | _, [] => True
  | world, move :: rest =>
    Guarded world move.1 move.2 ∧ GuardedRun (world.step move.1 move.2) rest

/-- Whoever is engaged holds the file with the name. -/
def Anchored (world : World) : Prop :=
  ∀ process, Engaged (world.clients process) → ∃ inode,
    (world.clients process).fileDescriptor = some inode ∧
      world.holder inode = some process ∧ world.name = some inode

variable {world : World} {process : Nat}

theorem Anchored.exclusive (anchored : Anchored world) : Exclusive world := by
  intro first second firstHolds secondHolds
  obtain ⟨inode, _, held, named⟩ := anchored first (.inl firstHolds)
  obtain ⟨other, _, otherHeld, otherNamed⟩ := anchored second (.inl secondHolds)
  cases named.symm.trans otherNamed
  exact Option.some.inj (held.symm.trans otherHeld)

/-! ### What a step leaves alone -/

@[simp] theorem put_clients_self (client : Client) :
    (world.put process client).clients process = client :=
  Function.update_self _ _ _

@[simp] theorem put_clients_of_ne {other : Nat} (client : Client) (different : other ≠ process) :
    (world.put process client).clients other = world.clients other :=
  Function.update_of_ne different _ _

/-- A client that is engaged afterwards was so before, with the same file; the others keep their
locks and the name. -/
theorem Anchored.move {after : World} {client : Client} (anchored : Anchored world)
    (clients : after.clients = world.clients)
    (kept : ∀ other inode, (other = process → Engaged client) → Engaged (world.clients other) →
      (world.clients other).fileDescriptor = some inode → world.holder inode = some other →
        world.name = some inode → after.holder inode = some other ∧ after.name = some inode)
    (same : Engaged client → Engaged (world.clients process) ∧
      client.fileDescriptor = (world.clients process).fileDescriptor) :
    Anchored (after.put process client) := by
  intro other engaged
  by_cases isSelf : other = process
  · subst isSelf
    rw [put_clients_self] at engaged ⊢
    obtain ⟨before, file⟩ := same engaged
    obtain ⟨inode, opened, held, named⟩ := anchored other before
    obtain ⟨stillHeld, stillNamed⟩ := kept other inode (fun _ => engaged) before opened held named
    exact ⟨inode, file.trans opened, stillHeld, stillNamed⟩
  · rw [put_clients_of_ne _ isSelf, clients] at engaged ⊢
    obtain ⟨inode, opened, held, named⟩ := anchored other engaged
    obtain ⟨stillHeld, stillNamed⟩ :=
      kept other inode (fun equal => absurd equal isSelf) engaged opened held named
    exact ⟨inode, opened, stillHeld, stillNamed⟩

/-- The usual case: only the place in the call changes. -/
theorem Anchored.put {client : Client} (anchored : Anchored world)
    (same : Engaged client → Engaged (world.clients process) ∧
      client.fileDescriptor = (world.clients process).fileDescriptor) :
    Anchored (world.put process client) :=
  anchored.move rfl (fun _ _ _ _ _ held named => ⟨held, named⟩) same

theorem openOrCreate_clients (world : World) : world.openOrCreate.1.clients = world.clients := by
  unfold World.openOrCreate
  split <;> rfl

theorem openOrCreate_named {inode : Nat} (named : world.name = some inode) :
    world.openOrCreate.1 = world := by
  simp only [World.openOrCreate, named]

/-- Opening creates a file only where nobody is engaged. -/
theorem Anchored.opened {client : Client} (anchored : Anchored world) {after : World}
    (clients : after.clients = world.openOrCreate.1.clients)
    (name : after.name = world.openOrCreate.1.name)
    (holder : after.holder = world.openOrCreate.1.holder)
    (same : Engaged client → Engaged (world.clients process) ∧
      client.fileDescriptor = (world.clients process).fileDescriptor) :
    Anchored (after.put process client) := by
  apply anchored.move (clients.trans (openOrCreate_clients world)) _ same
  intro other inode _ _ _ held named
  rw [holder, name, openOrCreate_named named]
  exact ⟨held, named⟩

theorem Anchored.tryLock {inode : Nat} {failed : Call} (anchored : Anchored world)
    (idle : failed ≠ .locked ∧ failed ≠ .truncated)
    (guarded : world.holder inode = none → world.name = some inode) :
    Anchored (world.tryLock process inode failed) := by
  unfold World.tryLock
  split
  case isFalse =>
    apply anchored.put
    intro engaged
    obtain acquired | isLocked | isTruncated := engaged
    · exact ⟨.inl acquired, rfl⟩
    · exact absurd isLocked idle.1
    · exact absurd isTruncated idle.2
  case isTrue free =>
    have named := guarded free
    -- the named file is free, so nobody else is engaged
    have alone : ∀ other, ¬ Engaged (world.clients other) := by
      intro other engaged
      obtain ⟨held, _, isHeld, isNamed⟩ := anchored other engaged
      cases named.symm.trans isNamed
      cases free.symm.trans isHeld
    intro other engaged
    by_cases isSelf : other = process
    · subst isSelf
      rw [put_clients_self]
      exact ⟨inode, rfl, Function.update_self _ _ _, named⟩
    · rw [put_clients_of_ne _ isSelf] at engaged
      exact absurd engaged (alone other)

theorem Anchored.step {move : Move} (anchored : Anchored world)
    (guarded : Guarded world process move) : Anchored (world.step process move) := by
  -- where the call of a client leaves the engaged part, it was acquired before
  have kept : ∀ {call : Call}, call ≠ .locked → call ≠ .truncated →
      Engaged { world.clients process with call := call } →
        Engaged (world.clients process) ∧ (world.clients process).fileDescriptor =
          (world.clients process).fileDescriptor := by
    intro call notLocked notTruncated engaged
    obtain acquired | isLocked | isTruncated := engaged
    · exact ⟨.inl acquired, rfl⟩
    · exact absurd isLocked notLocked
    · exact absurd isTruncated notTruncated
  unfold World.step
  simp only
  split
  case h_1 => exact anchored.opened rfl rfl rfl (kept (by simp) (by simp))
  case h_2 => exact anchored.opened rfl rfl rfl (kept (by simp) (by simp))
  case h_3 => exact anchored.put (kept (by simp) (by simp))
  case h_4 inode standing =>
    exact anchored.tryLock ⟨by simp, by simp⟩ (guarded inode (.inl standing))
  case h_5 inode standing =>
    exact anchored.tryLock ⟨by simp, by simp⟩ (guarded inode (.inr standing))
  case h_6 => exact anchored.put (kept (by simp) (by simp))
  case h_7 => exact anchored.put (kept (by simp) (by simp))
  case h_8 => exact anchored.put (kept (by simp) (by simp))
  case h_9 => exact anchored.put (kept (by simp) (by simp))
  case h_10 =>
    apply anchored.put
    intro engaged
    exact absurd engaged (by simp [Engaged])
  case h_11 =>
    split
    case h_1 pid _ =>
      apply anchored.put
      split
      · exact kept (by simp) (by simp)
      · exact kept (by simp) (by simp)
    case h_2 => exact anchored.put (kept (by simp) (by simp))
  case h_12 alive _ _ =>
    cases alive <;> exact anchored.put (kept (by simp) (by simp))
  case h_13 standing =>
    split
    · exact anchored.move rfl (fun _ _ _ _ _ held named => ⟨held, named⟩)
        fun _ => ⟨.inr (.inl standing), rfl⟩
    · exact anchored
  case h_14 complete standing =>
    split
    · split
      · exact anchored.move rfl (fun _ _ _ _ _ held named => ⟨held, named⟩)
          fun _ => ⟨.inr (.inr standing), rfl⟩
      · exact anchored.put (kept (by simp) (by simp))
    · exact anchored
  case h_15 =>
    split
    case h_1 inode _ =>
      have out : ¬ Engaged { world.clients process with
          call := .unlocked inode, acquired := false } := by
        simp [Engaged]
      apply Anchored.move anchored
      · rfl
      · intro other held isSelf _ _ isHeld named
        refine ⟨?_, named⟩
        have different : other ≠ process := fun same => out (isSelf same)
        simp only [World.unlock, isHeld, Option.some.injEq, different, and_false, if_false]
      · intro engaged
        exact absurd engaged out
    case h_2 => exact anchored
  case h_16 standing =>
    apply Anchored.move anchored
    · rfl
    · intro other inode _ engaged opened _ named
      exact absurd named (guarded standing other inode engaged opened)
    · exact kept (by simp) (by simp)
  case h_17 =>
    have out : ¬ Engaged Client.new := by
      simp [Engaged, Client.new]
    apply Anchored.move anchored
    · rfl
    · intro other held isSelf _ _ isHeld named
      refine ⟨?_, named⟩
      have different : other ≠ process := fun same => out (isSelf same)
      simp only [isHeld, Option.some.injEq, different, if_false]
    · intro engaged
      exact absurd engaged out
  case h_18 => exact anchored

theorem step_clients_of_ne {other : Nat} {move : Move} (different : other ≠ process) :
    (world.step process move).clients other = world.clients other := by
  have opened := congrFun (openOrCreate_clients world) other
  unfold World.step
  simp only
  split
  case h_1 => exact (put_clients_of_ne _ different).trans opened
  case h_2 => exact (put_clients_of_ne _ different).trans opened
  case h_4 =>
    unfold World.tryLock
    split <;> exact put_clients_of_ne _ different
  case h_5 =>
    unfold World.tryLock
    split <;> exact put_clients_of_ne _ different
  case h_11 => split <;> exact put_clients_of_ne _ different
  case h_13 => split <;> first | rfl | exact put_clients_of_ne _ different
  case h_14 =>
    split
    · split <;> exact put_clients_of_ne _ different
    · rfl
  case h_15 => split <;> first | rfl | exact put_clients_of_ne _ different
  case h_18 => rfl
  all_goals exact put_clients_of_ne _ different

theorem World.Quiet.anchored (quiet : world.Quiet) : Anchored world := by
  intro other engaged
  rw [quiet.clients other] at engaged
  simp [Engaged, Client.new] at engaged

theorem Anchored.run (steps : List (Nat × Move)) : ∀ world : World, Anchored world →
    GuardedRun world steps → ∀ done, done <+: steps → Anchored (world.run done) := by
  induction steps with
  | nil =>
    intro world anchored _ done early
    rw [List.prefix_nil.mp early]
    exact anchored
  | cons move steps ih =>
    intro world anchored guarded done early
    cases done with
    | nil => exact anchored
    | cons first done =>
      obtain ⟨same, earlier⟩ := List.cons_prefix_cons.mp early
      subst same
      exact ih _ (anchored.step guarded.1) guarded.2 done earlier

/-- As long as nobody locks a file that lost its name, and nobody takes the name from a locked
file, at most one process holds the lock. -/
theorem guarded_lock_exclusive (quiet : world.Quiet) (steps : List (Nat × Move))
    (guarded : GuardedRun world steps) :
    ∀ done, done <+: steps → Exclusive (world.run done) := by
  intro done early
  exact (Anchored.run steps world quiet.anchored guarded done early).exclusive

/-! ### Two runs -/

def emptyWorkdir : World where
  clients := fun _ => .new
  name := none
  inodes := 0
  holder := fun _ => none
  content := fun _ => none

theorem emptyWorkdir_quiet : emptyWorkdir.Quiet :=
  ⟨fun _ => rfl, fun _ => rfl⟩

/-- The calls of an `acquire` that finds the file free. -/
def acquiring (process : Nat) : List (Nat × Move) :=
  [(process, .open), (process, .flock), (process, .truncate), (process, .write true)]

/-- One process after the other. -/
def takingTurns : List (Nat × Move) :=
  acquiring 1 ++ [(1, .unlock), (1, .close), (1, .unlink)] ++ acquiring 2

theorem takingTurns_guarded : GuardedRun emptyWorkdir takingTurns := by
  refine ⟨trivial, ?_, trivial, trivial, trivial, trivial, ?_, trivial, ?_, trivial, trivial,
    trivial⟩
  · intro inode standing _
    obtain standing | standing := standing
    · cases show Call.opened 0 = .opened inode from standing
      rfl
    · cases show Call.opened 0 = .reopened inode from standing
  · intro _ other inode engaged
    by_cases first : other = 1
    · subst first
      obtain acquired | standing | standing := engaged
      · cases show false = true from acquired
      · cases show Call.closed = .locked from standing
      · cases show Call.closed = .truncated from standing
    · simp only [step_clients_of_ne first] at engaged
      obtain acquired | standing | standing := engaged
      · cases show false = true from acquired
      · cases show Call.idle = .locked from standing
      · cases show Call.idle = .truncated from standing
  · intro inode standing _
    obtain standing | standing := standing
    · cases show Call.opened 1 = .opened inode from standing
      rfl
    · cases show Call.opened 1 = .reopened inode from standing

theorem taking_turns_is_exclusive :
    emptyWorkdir.Quiet ∧ GuardedRun emptyWorkdir takingTurns ∧
      ∀ done, done <+: takingTurns → Exclusive (emptyWorkdir.run done) :=
  ⟨emptyWorkdir_quiet, takingTurns_guarded,
    guarded_lock_exclusive emptyWorkdir_quiet takingTurns takingTurns_guarded⟩

/-- The second process has opened the file before the first one releases it, and locks it before
the first one takes the name away; the third finds no file. -/
def overtaken : List (Nat × Move) :=
  acquiring 1 ++
    [(2, .open), (1, .unlock), (1, .close), (2, .flock), (2, .truncate), (2, .write true),
      (1, .unlink)] ++
    acquiring 3

theorem two_processes_hold_the_lock :
    emptyWorkdir.Quiet ∧ ¬ Exclusive (emptyWorkdir.run overtaken) := by
  refine ⟨emptyWorkdir_quiet, ?_⟩
  intro exclusive
  cases exclusive 2 3 (by decide) (by decide)

end Fantastic.Swift.WorkdirLock
