import Fantastic.Python.Runtime
import Mathlib.Algebra.Group.Int.Defs
import Mathlib.Algebra.Group.Nat.Defs
import Mathlib.Data.List.Infix
import Mathlib.Logic.Function.Basic

/-!
# The pid lock that Python and Rust processes share

`_lock.py` and `lock.rs` keep one file, `lock.json`, with the pid of its owner. Both look whether
the file is there, read it, ask the system whether the pid is alive, and write; a release reads the
file again and removes it. Here these are steps of any number of processes of both kinds, under
any users, which may end at any time. A write is two steps, since opening empties the file.

The two differ in three places. Without permission to signal a process Python takes it for dead;
a file that is gone when it is read is no lock for Python and an error for Rust; and a release of
Rust removes a file it cannot parse.
-/

namespace Fantastic.Parity.PidLock

open Python (PyError truthy hashKey)

/-- What a process can be known by: a positive `pid_t`. -/
abbrev Pid := { number : Nat // 0 < number ∧ number < 2 ^ 31 }

/-- The text of the file. A torn text is what two writers at one time leave. -/
inductive Content where
  | blank
  | torn
  | json (value : Value)
  deriving DecidableEq

/-- `{"pid": …}`. -/
def Content.record (pid : Pid) : Content :=
  .json (.dict [("pid", .int pid.val)])

/-- `_read_lock()` of a file that is there, and `cur.get("pid")`; nothing where `cur` is empty. -/
def pythonLock : Content → Except PyError (Option Value)
  | .json value =>
    if !truthy value then .ok none
    else
      match value with
      | .dict members =>
        .ok (some (((members.reverse.find? fun entry => entry.1 = "pid").map Prod.snd).getD .null))
      | _ => .error .attributeError
  | _ => .ok none

/-- `isinstance(cur_pid, int)`: booleans are numbers. -/
def pythonInt : Value → Option Int
  | .int number => some number
  | .bool value => some (if value then 1 else 0)
  | _ => none

def asU32 : Value → Option Nat
  | .int number => if 0 ≤ number ∧ number < 2 ^ 32 then some number.toNat else none
  | _ => none

/-- `serde_json::from_str::<LockFile>`: an object with one `pid`, or a sequence of it. -/
def rustLock : Content → Option Nat
  | .json (.dict members) =>
    match members.filter fun entry => entry.1 = "pid" with
    | [(_, value)] => asU32 value
    | _ => none
  | .json (.list [value]) => asU32 value
  | _ => none

inductive Kind where
  | python
  | rust
  deriving DecidableEq

/-- Where a call of `acquire` or `release` stands. -/
inductive Phase where
  | idle
  | checking
  | judging (pid : Int)
  | writing
  | truncated (inode : Nat)
  | releasing
  | unlinking
  deriving DecidableEq

/-- `acquired` is true from the end of `acquire` to the call of `release`. -/
structure Client where
  alive : Bool
  kind : Kind
  user : Nat
  phase : Phase
  acquired : Bool

/-- The writer is the process that last wrote the file, while it lives. -/
structure File where
  inode : Nat
  content : Content
  writer : Option Pid

structure World where
  clients : Pid → Client
  file : Option File
  inodes : Nat

/-- `foreign` is what the system says of a number that is no pid; `torn` whether a text that is
written over another one ends before it. -/
inductive Move where
  | spawn (kind : Kind) (user : Nat)
  | exit
  | acquire
  | read
  | kill (foreign : Bool)
  | truncate
  | write (torn : Bool)
  | release
  | unlink

/-- `kill(pid, 0)`. -/
inductive Signal where
  | delivered
  | denied
  | missing
  deriving DecidableEq

namespace World

def put (world : World) (pid : Pid) (client : Client) : World :=
  { world with clients := Function.update world.clients pid client }

def enter (world : World) (pid : Pid) (phase : Phase) : World :=
  world.put pid { world.clients pid with phase := phase }

/-- The superuser may signal everybody. -/
def maySignal (world : World) (sender target : Pid) : Bool :=
  (world.clients sender).user = 0 || (world.clients sender).user = (world.clients target).user

def signal (world : World) (sender target : Pid) : Signal :=
  if (world.clients target).alive then
    if world.maySignal sender target then .delivered else .denied
  else .missing

/-- `_pid_alive`; numbers beyond `pid_t` raise. -/
def pythonAlive (world : World) (sender : Pid) (number : Int) : Except PyError Bool :=
  if number ≤ 0 then .ok false
  else if inside : 0 < number.toNat ∧ number.toNat < 2 ^ 31 then
    .ok (decide (world.signal sender ⟨number.toNat, inside⟩ = .delivered))
  else .error (.valueError "signed integer is greater than maximum")

/-- `pid_alive`. -/
def rustAlive (world : World) (sender : Pid) (number : Int) (foreign : Bool) : Bool :=
  if inside : 0 < number.toNat ∧ number.toNat < 2 ^ 31 then
    decide (world.signal sender ⟨number.toNat, inside⟩ ≠ .missing)
  else foreign

/-- What an `acquire` makes of the file it has found. -/
def judged (kind : Kind) : Option File → Phase
  | none =>
    match kind with
    | .python => .writing
    | .rust => .idle
  | some file =>
    match kind with
    | .python =>
      match pythonLock file.content with
      | .error _ => .idle
      | .ok none => .writing
      | .ok (some value) =>
        match pythonInt value with
        | some number => .judging number
        | none => .writing
    | .rust =>
      match rustLock file.content with
      | some number => .judging number
      | none => .writing

/-- What a `release` makes of it. -/
def surrendered (kind : Kind) (pid : Pid) : Option File → Phase
  | none => .idle
  | some file =>
    match kind with
    | .python =>
      match pythonLock file.content with
      | .ok (some value) =>
        if hashKey value = .ok (.num (Dyadic.ofInt pid.val)) then .unlinking else .idle
      | _ => .idle
    | .rust =>
      match rustLock file.content with
      | some number => if number = pid.val then .unlinking else .idle
      | none => .unlinking

/-- What `acquire` does once it knows about the pid in the file. -/
def verdict (world : World) (pid : Pid) (number : Int) (foreign : Bool) : Phase :=
  match (world.clients pid).kind with
  | .python =>
    match world.pythonAlive pid number with
    | .ok false => .writing
    | _ => .idle
  | .rust => if world.rustAlive pid number foreign then .idle else .writing

/-- Opening for writing: the file is there and empty. -/
def emptied (world : World) (pid : Pid) : World × Nat :=
  match world.file with
  | some file => ({ world with file := some ⟨file.inode, .blank, some pid⟩ }, file.inode)
  | none =>
    ({ world with file := some ⟨world.inodes, .blank, some pid⟩, inodes := world.inodes + 1 },
      world.inodes)

/-- The text arrives in the file that was opened, wherever its name has gone. -/
def filled (world : World) (pid : Pid) (inode : Nat) (torn : Bool) : World :=
  match world.file with
  | some file =>
    if file.inode = inode then
      let text := if file.content = .blank ∨ torn = false then Content.record pid else .torn
      { world with file := some ⟨inode, text, some pid⟩ }
    else world
  | none => world

def unwritten (pid : Pid) (file : File) : File :=
  if file.writer = some pid then { file with writer := none } else file

def ended : Client where
  alive := false
  kind := .python
  user := 0
  phase := .idle
  acquired := false

/-- One step of one process. A move that does not fit where the process stands changes nothing. -/
def step (world : World) (pid : Pid) (move : Move) : World :=
  let client := world.clients pid
  if client.alive then
    match move, client.phase with
    | .exit, _ => { world with file := world.file.map (unwritten pid) }.put pid ended
    | .acquire, .idle => world.enter pid (if world.file.isSome then .checking else .writing)
    | .read, .checking => world.enter pid (judged client.kind world.file)
    | .kill foreign, .judging number => world.enter pid (world.verdict pid number foreign)
    | .truncate, .writing => (world.emptied pid).1.enter pid (.truncated (world.emptied pid).2)
    | .write torn, .truncated inode =>
      (world.filled pid inode torn).put pid { client with phase := .idle, acquired := true }
    | .release, .idle =>
      world.put pid
        { client with
          phase := if world.file.isSome then .releasing else .idle
          acquired := false }
    | .read, .releasing => world.enter pid (surrendered client.kind pid world.file)
    | .unlink, .unlinking => { world with file := none }.enter pid .idle
    | _, _ => world
  else
    match move with
    | .spawn kind user =>
      world.put pid { alive := true, kind := kind, user := user, phase := .idle, acquired := false }
    | _ => world

def run (world : World) (steps : List (Pid × Move)) : World :=
  steps.foldl (fun current move => current.step move.1 move.2) world

/-- Nobody has called yet; a file may be there, with any text. -/
structure Quiet (world : World) : Prop where
  idle : ∀ pid, (world.clients pid).phase = .idle ∧ (world.clients pid).acquired = false
  unowned : ∀ file, world.file = some file → file.writer = none

end World

/-- At most one live process is between its `acquire` and its `release`. -/
def Exclusive (world : World) : Prop :=
  ∀ first second, (world.clients first).acquired = true → (world.clients second).acquired = true →
    first = second

/-- An `unlink` now takes no file that another live process has written. -/
def Sparing (world : World) (pid : Pid) : Prop :=
  (world.clients pid).alive = true → (world.clients pid).phase = .unlinking →
    ∀ file, world.file = some file → ∀ other, file.writer = some other → other = pid

/-- Nobody else is between a look at the file and what follows from it. -/
def Undisturbed (world : World) (pid : Pid) : Prop :=
  ∀ other, other ≠ pid → (world.clients other).phase ≠ .writing ∧
    (world.clients other).phase ≠ .unlinking ∧
    ∀ number, (world.clients other).phase ≠ .judging number

/-- The file is not one that another process is just writing. -/
def Complete (world : World) (pid : Pid) : Prop :=
  ∀ file other, world.file = some file → file.writer = some other → other ≠ pid →
    ∀ inode, (world.clients other).phase ≠ .truncated inode

/-- What keeps the lock: a file is emptied only where nobody else is about to act on what it saw,
it is read only when complete (a release of Python may read it at any time), and a Python process
may signal the writer it asks about. -/
def Guarded (world : World) (pid : Pid) : Move → Prop
  | .truncate => (world.clients pid).phase = .writing → Undisturbed world pid
  | .read => ((world.clients pid).phase = .releasing → (world.clients pid).kind = .rust) →
      Complete world pid
  | .kill _ => (world.clients pid).kind = .python → ∀ file other, world.file = some file →
      file.writer = some other → (world.clients pid).phase = .judging other.val →
        world.maySignal pid other = true
  | _ => True

def GuardedRun : World → List (Pid × Move) → Prop
  | _, [] => True
  | world, move :: rest =>
    Guarded world move.1 move.2 ∧ GuardedRun (world.step move.1 move.2) rest

/-! ### The invariant -/

variable {world : World} {pid : Pid}

/-- The file is the own one, or nobody's who lives. -/
def Own (world : World) (pid : Pid) : Prop :=
  ∀ file, world.file = some file → ∀ other, file.writer = some other → other = pid

/-- What holds of one process in a phase of its call. -/
def PhaseFine (world : World) (pid : Pid) : Phase → Prop
  | .idle => True
  | .checking => True
  | .judging number => ∀ file other, world.file = some file → file.writer = some other →
      other ≠ pid → number = other.val
  | .writing => Own world pid
  | .truncated inode => world.file = some ⟨inode, .blank, some pid⟩
  | .releasing => (world.clients pid).acquired = false
  | .unlinking => (world.clients pid).acquired = false ∧ Own world pid

structure Inv (world : World) : Prop where
  phases : ∀ pid, PhaseFine world pid (world.clients pid).phase
  holds : ∀ pid, (world.clients pid).acquired = true → ∃ file, world.file = some file ∧
    file.writer = some pid
  written : ∀ file other, world.file = some file → file.writer = some other →
    (world.clients other).alive = true ∧
      ((∃ inode, (world.clients other).phase = .truncated inode) ∨ file.content = .record other)

theorem Inv.exclusive (inv : Inv world) : Exclusive world := by
  intro first second firstHolds secondHolds
  obtain ⟨file, present, isFirst⟩ := inv.holds first firstHolds
  obtain ⟨other, sameFile, isSecond⟩ := inv.holds second secondHolds
  cases present.symm.trans sameFile
  exact Option.some.inj (isFirst.symm.trans isSecond)

theorem Inv.sparing (inv : Inv world) (pid : Pid) : Sparing world pid := by
  intro _ unlinking
  have fine := inv.phases pid
  rw [unlinking] at fine
  exact fine.2

theorem World.Quiet.inv (quiet : world.Quiet) : Inv world := by
  constructor
  · intro pid
    rw [(quiet.idle pid).1]
    trivial
  · intro pid acquired
    rw [(quiet.idle pid).2] at acquired
    cases acquired
  · intro file other present writer
    rw [quiet.unowned file present] at writer
    cases writer

/-! ### Reading -/

theorem pythonLock_record (pid : Pid) :
    pythonLock (.record pid) = .ok (some (.int pid.val)) := by
  simp [pythonLock, Content.record, truthy]

theorem rustLock_record (pid : Pid) : rustLock (.record pid) = some pid.val := by
  have small : (pid.val : Int) < 4294967296 := by
    have bound := pid.property.2
    omega
  simp [rustLock, Content.record, asU32, small]

theorem judged_record (kind : Kind) {file : File} {other : Pid}
    (content : file.content = .record other) : World.judged kind (some file) = .judging other.val := by
  cases kind with
  | python => simp [World.judged, content, pythonLock_record, pythonInt]
  | rust => simp [World.judged, content, rustLock_record]

theorem surrendered_record (kind : Kind) {file : File} {other : Pid} (different : other ≠ pid)
    (content : file.content = .record other) : World.surrendered kind pid (some file) = .idle := by
  have apart : other.val ≠ pid.val := fun same => different (Subtype.ext same)
  cases kind with
  | python =>
    have unequal : hashKey (.int other.val) ≠ .ok (.num (Dyadic.ofInt pid.val)) := by
      intro same
      have numbers := Python.DictKey.num.inj (Except.ok.inj same)
      have integers := congrArg Dyadic.toRat numbers
      simp only [Dyadic.ofInt, Dyadic.toRat_ofIntWithPrec_eq_mul_two_pow] at integers
      simp at integers
      exact apart (by exact_mod_cast integers)
    simp [World.surrendered, content, pythonLock_record, unequal]
  | rust => simp [World.surrendered, content, rustLock_record, apart]

theorem surrendered_blank_python {file : File} (content : file.content = .blank) :
    World.surrendered .python pid (some file) = .idle := by
  simp [World.surrendered, content, pythonLock]

/-! ### One process moves on -/

@[simp] theorem put_clients_self (client : Client) : (world.put pid client).clients pid = client :=
  Function.update_self _ _ _

@[simp] theorem put_clients_of_ne {other : Pid} (client : Client) (different : other ≠ pid) :
    (world.put pid client).clients other = world.clients other :=
  Function.update_of_ne different _ _

/-- A phase is judged by the file and by `acquired`. -/
theorem PhaseFine.congr {after : World} {phase : Phase} (fine : PhaseFine world pid phase)
    (file : after.file = world.file)
    (acquired : (after.clients pid).acquired = (world.clients pid).acquired) :
    PhaseFine after pid phase := by
  cases phase with
  | idle => trivial
  | checking => trivial
  | judging number =>
    intro found other present writer different
    rw [file] at present
    exact fine found other present writer different
  | writing =>
    intro found present
    rw [file] at present
    exact fine found present
  | truncated inode =>
    rw [PhaseFine, file]
    exact fine
  | releasing =>
    rw [PhaseFine, acquired]
    exact fine
  | unlinking =>
    refine ⟨acquired.trans fine.1, ?_⟩
    intro found present
    rw [file] at present
    exact fine.2 found present

/-- The file stays, one client changes. -/
theorem Inv.put {client : Client} (inv : Inv world) (alive : client.alive = true)
    (fine : PhaseFine (world.put pid client) pid client.phase)
    (holds : client.acquired = true → (world.clients pid).acquired = true)
    (untorn : ∀ inode, (world.clients pid).phase ≠ .truncated inode) :
    Inv (world.put pid client) := by
  constructor
  · intro other
    by_cases isSelf : other = pid
    · subst isSelf
      rw [put_clients_self]
      exact fine
    · rw [put_clients_of_ne _ isSelf]
      apply (inv.phases other).congr
      · rfl
      · rw [put_clients_of_ne _ isSelf]
  · intro other acquired
    by_cases isSelf : other = pid
    · subst isSelf
      rw [put_clients_self] at acquired
      exact inv.holds other (holds acquired)
    · rw [put_clients_of_ne _ isSelf] at acquired
      exact inv.holds other acquired
  · intro file other present writer
    obtain ⟨wasAlive, text⟩ := inv.written file other present writer
    by_cases isSelf : other = pid
    · subst isSelf
      rw [put_clients_self]
      refine ⟨alive, .inr ?_⟩
      obtain ⟨inode, isTruncated⟩ | complete := text
      · exact absurd isTruncated (untorn inode)
      · exact complete
    · rw [put_clients_of_ne _ isSelf]
      exact ⟨wasAlive, text⟩

theorem Inv.enter {phase : Phase} (inv : Inv world) (alive : (world.clients pid).alive = true)
    (untorn : ∀ inode, (world.clients pid).phase ≠ .truncated inode)
    (fine : PhaseFine world pid phase) : Inv (world.enter pid phase) := by
  unfold World.enter
  apply Inv.put inv
  · exact alive
  · apply fine.congr
    · rfl
    · rw [put_clients_self]
  · exact fun acquired => acquired
  · exact untorn

theorem own_of_no_file (absent : world.file = none) : Own world pid := by
  intro file present
  rw [absent] at present
  cases present

/-! ### The moves -/

/-- A complete file of another live process is recognised. -/
theorem Inv.judged (inv : Inv world) (complete : Complete world pid) (kind : Kind) :
    PhaseFine world pid (World.judged kind world.file) := by
  cases present : world.file with
  | none =>
    cases kind with
    | python => exact own_of_no_file present
    | rust => trivial
  | some file =>
    by_cases foreign : ∃ other, file.writer = some other ∧ other ≠ pid
    · obtain ⟨other, writer, different⟩ := foreign
      obtain ⟨_, ⟨inode, isTruncated⟩ | text⟩ := inv.written file other present writer
      · exact absurd isTruncated (complete file other present writer different inode)
      · rw [judged_record kind text]
        intro found holder stillPresent isWriter _
        cases present.symm.trans stillPresent
        cases writer.symm.trans isWriter
        rfl
    · have own : Own world pid := by
        intro found stillPresent other isWriter
        cases present.symm.trans stillPresent
        by_contra different
        exact foreign ⟨other, isWriter, different⟩
      have any : ∀ number, PhaseFine world pid (.judging number) := by
        intro number found other stillPresent isWriter different
        exact absurd (own found stillPresent other isWriter) different
      unfold World.judged
      cases kind with
      | python =>
        simp only
        split
        · trivial
        · exact own
        · split
          · exact any _
          · exact own
      | rust =>
        simp only
        split
        · exact any _
        · exact own

theorem Inv.verdict {number : Int} (inv : Inv world)
    (standing : (world.clients pid).phase = .judging number)
    (guarded : (world.clients pid).kind = .python → ∀ file other, world.file = some file →
      file.writer = some other → (world.clients pid).phase = .judging other.val →
        world.maySignal pid other = true) (foreign : Bool) :
    PhaseFine world pid (world.verdict pid number foreign) := by
  have fine := inv.phases pid
  rw [standing] at fine
  by_cases own : Own world pid
  · unfold World.verdict
    split
    · split
      · exact own
      · trivial
    · split
      · trivial
      · exact own
  · -- the pid in question is that of a live writer
    obtain ⟨file, present, other, writer, different⟩ :
        ∃ file, world.file = some file ∧ ∃ other, file.writer = some other ∧ other ≠ pid := by
      by_contra nobody
      apply own
      intro file present other writer
      by_contra different
      exact nobody ⟨file, present, other, writer, different⟩
    have named : number = other.val := fine file other present writer different
    have alive := (inv.written file other present writer).1
    have inside : 0 < number.toNat ∧ number.toNat < 2 ^ 31 := by
      rw [named, Int.toNat_natCast]
      exact other.property
    have isOther : (⟨number.toNat, inside⟩ : Pid) = other := by
      apply Subtype.ext
      simp only [named, Int.toNat_natCast]
    have stays : world.verdict pid number foreign = .idle := by
      unfold World.verdict
      cases kind : (world.clients pid).kind with
      | python =>
        have positive : ¬ number ≤ 0 := by
          have bound := inside.1
          omega
        have permitted := guarded kind file other present writer (named ▸ standing)
        simp only [World.pythonAlive, positive, if_false, dif_pos inside, isOther, World.signal,
          alive, if_true, permitted, decide_true]
      | rust =>
        have found : world.signal pid other ≠ .missing := by
          unfold World.signal
          rw [if_pos alive]
          split <;> exact nofun
        simp only [World.rustAlive, dif_pos inside, isOther, found, ne_eq, not_false_eq_true,
          decide_true, if_true]
    rw [stays]
    trivial

/-- A release takes what is its own, or nobody's who lives. -/
theorem Inv.surrendered (inv : Inv world) (standing : (world.clients pid).phase = .releasing)
    (complete : (world.clients pid).kind = .rust → Complete world pid) :
    PhaseFine world pid (World.surrendered (world.clients pid).kind pid world.file) := by
  have fine := inv.phases pid
  rw [standing] at fine
  cases present : world.file with
  | none => trivial
  | some file =>
    by_cases foreign : ∃ other, file.writer = some other ∧ other ≠ pid
    · obtain ⟨other, writer, different⟩ := foreign
      have stays : World.surrendered (world.clients pid).kind pid (some file) = .idle := by
        obtain ⟨_, ⟨inode, isTruncated⟩ | text⟩ := inv.written file other present writer
        · cases kind : (world.clients pid).kind with
          | python =>
            have emptied := inv.phases other
            rw [isTruncated] at emptied
            cases present.symm.trans emptied
            exact surrendered_blank_python rfl
          | rust =>
            exact absurd isTruncated (complete kind file other present writer different inode)
        · exact surrendered_record _ different text
      rw [stays]
      trivial
    · have own : Own world pid := by
        intro found stillPresent other isWriter
        cases present.symm.trans stillPresent
        by_contra different
        exact foreign ⟨other, isWriter, different⟩
      have may : PhaseFine world pid .unlinking := ⟨fine, own⟩
      unfold World.surrendered
      repeat' split
      all_goals first | exact may | trivial

/-! ### Moves of the file -/

/-- A process takes the file for itself, where no other live process has it. -/
theorem Inv.take {after : World} {client : Client} (inv : Inv world) (file : File)
    (own : Own world pid) (present : after.file = some file) (writer : file.writer = some pid)
    (clients : after.clients = Function.update world.clients pid client)
    (alive : client.alive = true) (fine : PhaseFine after pid client.phase)
    (text : (∃ inode, client.phase = .truncated inode) ∨ file.content = .record pid)
    (others : ∀ other, other ≠ pid → (world.clients other).phase ≠ .writing ∧
      (world.clients other).phase ≠ .unlinking ∧
      ∀ number, (world.clients other).phase = .judging number → number = pid.val) :
    Inv after := by
  have self : after.clients pid = client := by
    rw [clients, Function.update_self]
  have same : ∀ other, other ≠ pid → after.clients other = world.clients other := by
    intro other different
    rw [clients, Function.update_of_ne different]
  constructor
  · intro other
    by_cases isSelf : other = pid
    · subst isSelf
      rw [self]
      exact fine
    · have wasFine := inv.phases other
      obtain ⟨notWriting, notUnlinking, judging⟩ := others other isSelf
      rw [same other isSelf]
      cases phase : (world.clients other).phase with
      | idle => trivial
      | checking => trivial
      | judging number =>
        intro found holder stillPresent isWriter _
        cases present.symm.trans stillPresent
        cases writer.symm.trans isWriter
        exact judging number phase
      | writing => exact absurd phase notWriting
      | truncated inode =>
        rw [phase] at wasFine
        exact absurd (own _ wasFine other rfl) isSelf
      | releasing =>
        rw [phase] at wasFine
        rw [PhaseFine, same other isSelf]
        exact wasFine
      | unlinking => exact absurd phase notUnlinking
  · intro other acquired
    by_cases isSelf : other = pid
    · subst isSelf
      exact ⟨file, present, writer⟩
    · rw [same other isSelf] at acquired
      obtain ⟨found, wasPresent, isWriter⟩ := inv.holds other acquired
      exact absurd (own found wasPresent other isWriter) isSelf
  · intro found other stillPresent isWriter
    cases present.symm.trans stillPresent
    cases writer.symm.trans isWriter
    rw [self]
    exact ⟨alive, text⟩

theorem Inv.truncate (inv : Inv world) (alive : (world.clients pid).alive = true)
    (standing : (world.clients pid).phase = .writing) (undisturbed : Undisturbed world pid) :
    Inv ((world.emptied pid).1.enter pid (.truncated (world.emptied pid).2)) := by
  have own := inv.phases pid
  rw [standing] at own
  have file : (world.emptied pid).1.file = some ⟨(world.emptied pid).2, .blank, some pid⟩ := by
    unfold World.emptied
    split <;> rfl
  have clients : (world.emptied pid).1.clients = world.clients := by
    unfold World.emptied
    split <;> rfl
  apply inv.take ⟨(world.emptied pid).2, .blank, some pid⟩ own
  · exact file
  · rfl
  · rw [World.enter, World.put, clients]
  · exact alive
  · exact file
  · exact .inl ⟨_, rfl⟩
  · intro other different
    obtain ⟨notWriting, notUnlinking, notJudging⟩ := undisturbed other different
    refine ⟨notWriting, notUnlinking, ?_⟩
    intro number judging
    exact absurd judging (notJudging number)

theorem filled_blank {inode : Nat} (torn : Bool)
    (present : world.file = some ⟨inode, .blank, some pid⟩) :
    world.filled pid inode torn =
      { world with file := some ⟨inode, .record pid, some pid⟩ } := by
  unfold World.filled
  rw [present]
  simp only [if_true, true_or]

theorem Inv.write {inode : Nat} (inv : Inv world) (alive : (world.clients pid).alive = true)
    (standing : (world.clients pid).phase = .truncated inode) (torn : Bool) :
    Inv ((world.filled pid inode torn).put pid
      { world.clients pid with phase := .idle, acquired := true }) := by
  have present := inv.phases pid
  rw [standing] at present
  have own : Own world pid := by
    intro file found other writer
    cases present.symm.trans found
    exact (Option.some.inj writer).symm
  have mine : ∀ other, Own world other → other = pid := fun other owns =>
    (owns _ present pid rfl).symm
  rw [filled_blank torn present]
  apply inv.take ⟨inode, .record pid, some pid⟩ own
  · rfl
  · rfl
  · rfl
  · exact alive
  · trivial
  · exact .inr rfl
  · intro other different
    have fine := inv.phases other
    refine ⟨?_, ?_, ?_⟩
    · intro writing
      rw [writing] at fine
      exact different (mine other fine)
    · intro unlinking
      rw [unlinking] at fine
      exact different (mine other fine.2)
    · intro number judging
      rw [judging] at fine
      exact fine _ pid present rfl (Ne.symm different)

/-- The file is gone, and it was nobody else's. -/
theorem Inv.unlink (inv : Inv world) (standing : (world.clients pid).phase = .unlinking) :
    Inv ({ world with file := none }.enter pid .idle) := by
  have mine := inv.phases pid
  rw [standing] at mine
  obtain ⟨unacquired, own⟩ := mine
  unfold World.enter
  constructor
  · intro other
    by_cases isSelf : other = pid
    · subst isSelf
      rw [put_clients_self]
      trivial
    · have wasFine := inv.phases other
      rw [put_clients_of_ne _ isSelf]
      cases phase : (world.clients other).phase with
      | idle => trivial
      | checking => trivial
      | judging number => exact nofun
      | writing => exact nofun
      | truncated inode =>
        rw [phase] at wasFine
        exact absurd (own _ wasFine other rfl) isSelf
      | releasing =>
        rw [phase] at wasFine
        rw [PhaseFine, put_clients_of_ne _ isSelf]
        exact wasFine
      | unlinking =>
        rw [phase] at wasFine
        refine ⟨?_, nofun⟩
        rw [put_clients_of_ne _ isSelf]
        exact wasFine.1
  · intro other acquired
    by_cases isSelf : other = pid
    · subst isSelf
      rw [put_clients_self] at acquired
      exact absurd (unacquired.symm.trans acquired) nofun
    · rw [put_clients_of_ne _ isSelf] at acquired
      obtain ⟨found, present, writer⟩ := inv.holds other acquired
      exact absurd (own found present other writer) isSelf
  · exact nofun

/-- What an ended process has written is nobody's. -/
theorem Inv.exit (inv : Inv world) :
    Inv ({ world with file := world.file.map (World.unwritten pid) }.put pid World.ended) := by
  have shrunk : ∀ file other, world.file.map (World.unwritten pid) = some file →
      file.writer = some other → other ≠ pid ∧ world.file = some file := by
    intro file other present writer
    obtain ⟨before, wasPresent, same⟩ := Option.map_eq_some_iff.mp present
    unfold World.unwritten at same
    split at same
    · subst same
      cases writer
    · rename_i notMine
      subst same
      refine ⟨?_, wasPresent⟩
      intro isSelf
      exact notMine (isSelf ▸ writer)
  have kept : ∀ file other, world.file = some file → file.writer = some other → other ≠ pid →
      world.file.map (World.unwritten pid) = some file := by
    intro file other present writer different
    have notMine : file.writer ≠ some pid := by
      intro mine
      exact different (Option.some.inj (writer.symm.trans mine))
    rw [present, Option.map_some, World.unwritten, if_neg notMine]
  constructor
  · intro other
    by_cases isSelf : other = pid
    · subst isSelf
      rw [put_clients_self]
      trivial
    · have wasFine := inv.phases other
      rw [put_clients_of_ne _ isSelf]
      have stillOwn : Own world other →
          Own ({ world with file := world.file.map (World.unwritten pid) }.put pid World.ended)
            other := by
        intro own file present holder writer
        exact own file (shrunk file holder present writer).2 holder writer
      cases phase : (world.clients other).phase with
      | idle => trivial
      | checking => trivial
      | judging number =>
        rw [phase] at wasFine
        intro file holder present writer different
        exact wasFine file holder (shrunk file holder present writer).2 writer different
      | writing =>
        rw [phase] at wasFine
        exact stillOwn wasFine
      | truncated inode =>
        rw [phase] at wasFine
        exact kept _ other wasFine rfl isSelf
      | releasing =>
        rw [phase] at wasFine
        rw [PhaseFine, put_clients_of_ne _ isSelf]
        exact wasFine
      | unlinking =>
        rw [phase] at wasFine
        refine ⟨?_, stillOwn wasFine.2⟩
        rw [put_clients_of_ne _ isSelf]
        exact wasFine.1
  · intro other acquired
    by_cases isSelf : other = pid
    · subst isSelf
      rw [put_clients_self] at acquired
      cases acquired
    · rw [put_clients_of_ne _ isSelf] at acquired
      obtain ⟨file, present, writer⟩ := inv.holds other acquired
      exact ⟨file, kept file other present writer isSelf, writer⟩
  · intro file other present writer
    obtain ⟨different, wasPresent⟩ := shrunk file other present writer
    rw [put_clients_of_ne _ different]
    exact inv.written file other wasPresent writer

theorem Inv.spawn (inv : Inv world) (dead : (world.clients pid).alive = false) (kind : Kind)
    (user : Nat) :
    Inv (world.put pid
      { alive := true, kind := kind, user := user, phase := .idle, acquired := false }) := by
  apply Inv.put inv
  · rfl
  · trivial
  · exact nofun
  · intro inode truncated
    have fine := inv.phases pid
    rw [truncated] at fine
    have alive := (inv.written _ pid fine rfl).1
    exact absurd (dead.symm.trans alive) nofun

/-! ### Runs -/

/-- A process moves only itself, besides the file. -/
theorem step_clients_of_ne {other : Pid} {move : Move} (different : other ≠ pid) :
    (world.step pid move).clients other = world.clients other := by
  unfold World.step World.enter World.emptied World.filled
  dsimp only
  repeat' split
  all_goals first | rfl | exact put_clients_of_ne _ different

theorem Inv.step {move : Move} (inv : Inv world) (guarded : Guarded world pid move) :
    Inv (world.step pid move) := by
  unfold World.step
  dsimp only
  by_cases alive : (world.clients pid).alive = true
  · rw [if_pos alive]
    split
    · exact inv.exit
    · rename_i standing
      apply inv.enter alive (by rw [standing]; exact nofun)
      split
      · trivial
      · rename_i absent
        exact own_of_no_file (by simpa using absent)
    · rename_i standing
      apply inv.enter alive (by rw [standing]; exact nofun)
      apply inv.judged
      apply guarded
      intro releasing
      cases standing.symm.trans releasing
    · rename_i standing
      apply inv.enter alive (by rw [standing]; exact nofun)
      exact inv.verdict standing guarded _
    · rename_i standing
      exact inv.truncate alive standing (guarded standing)
    · rename_i standing
      exact inv.write alive standing _
    · rename_i standing
      apply Inv.put inv
      · exact alive
      · dsimp only
        split
        · rw [PhaseFine, put_clients_self]
        · trivial
      · exact nofun
      · rw [standing]
        exact nofun
    · rename_i standing
      apply inv.enter alive (by rw [standing]; exact nofun)
      apply inv.surrendered standing
      intro isRust
      exact guarded fun _ => isRust
    · rename_i standing
      exact inv.unlink standing
    · exact inv
  · rw [if_neg alive]
    split
    · exact inv.spawn (by simpa using alive) _ _
    · exact inv

theorem Inv.run {steps : List (Pid × Move)} (inv : Inv world) (guarded : GuardedRun world steps) :
    Inv (world.run steps) := by
  induction steps generalizing world with
  | nil => exact inv
  | cons move rest ih => exact ih (inv.step guarded.1) guarded.2

theorem GuardedRun.of_prefix {done steps : List (Pid × Move)} (guarded : GuardedRun world steps)
    (upTo : done <+: steps) : GuardedRun world done := by
  induction done generalizing world steps with
  | nil => trivial
  | cons move rest ih =>
    obtain ⟨more, rfl⟩ := upTo
    exact ⟨guarded.1, ih guarded.2 ⟨more, rfl⟩⟩

/-- In every interleaving of guarded steps at most one live process holds the lock, and no release
takes the file of another one. -/
theorem guarded_pid_lock_exclusive (quiet : world.Quiet) (steps : List (Pid × Move))
    (guarded : GuardedRun world steps) (done : List (Pid × Move)) (upTo : done <+: steps) :
    Exclusive (world.run done) ∧
      ∀ pid, done ++ [(pid, Move.unlink)] <+: steps → Sparing (world.run done) pid := by
  have inv := quiet.inv.run (guarded.of_prefix upTo)
  exact ⟨inv.exclusive, fun pid _ => inv.sparing pid⟩

def pidOne : Pid := ⟨41, by decide⟩

def pidTwo : Pid := ⟨42, by decide⟩

/-- No process and no file. -/
def fresh : World where
  clients := fun _ => World.ended
  file := none
  inodes := 0

theorem fresh_quiet : fresh.Quiet := by
  constructor
  · exact fun _ => ⟨rfl, rfl⟩
  · intro file there
    cases there

/-- A Python process takes the lock, and a Rust process of another user finds it there. -/
def orderly : List (Pid × Move) :=
  [(pidOne, .spawn .python 501), (pidTwo, .spawn .rust 502), (pidOne, .acquire),
    (pidOne, .truncate), (pidOne, .write false), (pidTwo, .acquire), (pidTwo, .read),
    (pidTwo, .kill false)]

theorem undisturbed_of_idle
    (idle : ∀ other, other ≠ pid → (world.clients other).phase = .idle) :
    Undisturbed world pid := by
  intro other different
  rw [idle other different]
  exact ⟨nofun, nofun, nofun⟩

theorem orderly_guarded : GuardedRun fresh orderly := by
  refine ⟨trivial, trivial, trivial, ?_, trivial, trivial, ?_, ?_, trivial⟩
  · intro _
    apply undisturbed_of_idle
    intro other different
    by_cases isTwo : other = pidTwo
    · subst isTwo
      decide
    · rw [step_clients_of_ne different, step_clients_of_ne isTwo, step_clients_of_ne different]
      exact (fresh_quiet.idle other).1
  · intro _ file other present writer _ inode
    cases present
    cases writer
    exact nofun
  · intro isRust
    cases isRust

/-- Two Python processes look before either of them writes. -/
def race : List (Pid × Move) :=
  [(pidOne, .spawn .python 501), (pidTwo, .spawn .python 501), (pidOne, .acquire),
    (pidTwo, .acquire), (pidOne, .truncate), (pidOne, .write false), (pidTwo, .truncate),
    (pidTwo, .write false)]

theorem guarded_pid_lock_exclusive_orderly :
    Exclusive (fresh.run orderly) ∧ ((fresh.run orderly).clients pidOne).acquired = true ∧
      ((fresh.run orderly).clients pidTwo).phase = .idle := by
  refine ⟨?_, by decide, by decide⟩
  exact (guarded_pid_lock_exclusive fresh_quiet orderly orderly_guarded orderly
    List.prefix_rfl).1

theorem race_shares_lock : fresh.Quiet ∧ ¬ Exclusive (fresh.run race) := by
  refine ⟨fresh_quiet, ?_⟩
  intro exclusive
  have same := exclusive pidOne pidTwo (by decide) (by decide)
  cases same

end Fantastic.Parity.PidLock
