import Fantastic.Rust.BridgeRpc

/-!
# Which reply a forward returns

Ids are unique within a generation as long as its counter does not wrap around, and
every generation starts over at the same ids. So a forward returns its own reply in
every run in which a boot builds a new generation only when nothing of the earlier
ones is left, and a run with one late reply across a reconnect shows why.
-/

namespace Fantastic.Rust.Bridge

variable {bridge : Bridge} {call : Nat}

/-- A forward of this generation that may still put its frame on the wire. -/
def Phase.unsentIn (phase : Phase) (generation : Nat) : Prop :=
  match phase with
  | .held other | .numbered other _ | .inserted other _ => other = generation
  | _ => False

/-- The id a phase was given, if it has one by then. -/
def Phase.id : Phase → Option (Nat × Nat)
  | .numbered generation number | .inserted generation number | .waiting generation number
  | .expired generation number => some (generation, number)
  | _ => none

/-- Nothing of an earlier connection is left: no state registered or about to be, no
read loop, no forward still to send, no frame on the way. -/
structure Quiet (bridge : Bridge) : Prop where
  unregistered : bridge.current = none
  published : bridge.unpublished = []
  stopped : ∀ generation, (bridge.generations generation).running = false
  sent : ∀ call generation, ¬ Phase.unsentIn (bridge.calls call).phase generation
  noCalls : bridge.callFrames = []
  noReplies : bridge.replyFrames = []

/-- The condition on one move: a boot builds only on a quiet bridge, and no counter
wraps around. -/
def Careful (bridge : Bridge) : Move → Prop
  | .bootBuild => bridge.Quiet
  | .issue call => ∀ generation, (bridge.calls call).phase = .held generation →
      (bridge.generations generation).issued + 1 < 2 ^ 64
  | _ => True

def CarefulRun : Bridge → List Move → Prop
  | _, [] => True
  | bridge, move :: rest => bridge.Careful move ∧ CarefulRun (bridge.step move) rest

/-- Every reply returned so far is the reply to the call it was returned for. -/
def OwnReplies (bridge : Bridge) : Prop :=
  ∀ call origin, (bridge.calls call).phase = .returned (.reply origin) → origin = call

/-- What the ghost fields of one call say about it. -/
structure CallFits (built : Nat) (call : Nat) (state : CallState) : Prop where
  unsent : ∀ generation, Phase.unsentIn state.phase generation → generation + 1 = built
  held : ∀ generation, state.phase = .held generation → state.origin = none
  named : ∀ id, Phase.id state.phase = some id → state.origin = some id
  inbox : ∀ origin, state.inbox = some (.reply origin) → origin = call
  returned : ∀ origin, state.phase = .returned (.reply origin) → origin = call

/-- The invariant of careful runs: only the latest generation is alive, ids of one
generation are unique, and tables and frames know the call they belong to. -/
structure Correlated (bridge : Bridge) : Prop where
  currentLatest : ∀ generation, bridge.current = some generation → generation + 1 = bridge.built
  unpublishedLatest : ∀ generation ∈ bridge.unpublished, generation + 1 = bridge.built
  runningLatest : ∀ generation, (bridge.generations generation).running = true →
    generation + 1 = bridge.built
  calls : ∀ call, CallFits bridge.built call (bridge.calls call)
  unbegun : ∀ call, bridge.begun ≤ call → bridge.calls call = ⟨.returned .error, none, none⟩
  issued : ∀ call generation number, (bridge.calls call).origin = some (generation, number) →
    generation < bridge.built ∧ number ≤ (bridge.generations generation).issued
  unique : ∀ first second id, (bridge.calls first).origin = some id →
    (bridge.calls second).origin = some id → first = second
  pending : ∀ generation number call,
    (bridge.generations generation).pending.get? number = some call →
      (bridge.calls call).origin = some (generation, number)
  callFrames : ∀ frame ∈ bridge.callFrames, ∃ generation, generation + 1 = bridge.built ∧
    (bridge.calls frame.call).origin = some (generation, frame.number)
  replyFrames : ∀ entry ∈ bridge.replyFrames, ∃ generation, generation + 1 = bridge.built ∧
    (bridge.calls entry.1.call).origin = some (generation, entry.1.number)

theorem fresh_correlated : fresh.Correlated where
  currentLatest := by simp [fresh]
  unpublishedLatest := by simp [fresh]
  runningLatest := by simp [fresh]
  calls := by
    intro call
    constructor <;> simp [fresh, Phase.unsentIn, Phase.id]
  unbegun := by simp [fresh]
  issued := by simp [fresh]
  unique := by simp [fresh]
  pending := by simp [fresh]
  callFrames := by simp [fresh]
  replyFrames := by simp [fresh]

/-! ### Small updates -/

theorem Correlated.begun_of_phase (fine : bridge.Correlated)
    (active : (bridge.calls call).phase ≠ .returned .error) : call < bridge.begun := by
  by_contra bound
  apply active
  rw [fine.unbegun call (Nat.le_of_not_lt bound)]

/-- Rewriting the states of calls without touching their origins. -/
theorem Correlated.recall (fine : bridge.Correlated) (calls : Nat → CallState)
    (idle : ∀ call, bridge.begun ≤ call → calls call = bridge.calls call)
    (origins : ∀ call, (calls call).origin = (bridge.calls call).origin)
    (fits : ∀ call, CallFits bridge.built call (calls call)) :
    { bridge with calls := calls }.Correlated where
  currentLatest := fine.currentLatest
  unpublishedLatest := fine.unpublishedLatest
  runningLatest := fine.runningLatest
  calls := fits
  unbegun := by
    intro call bound
    rw [← fine.unbegun call bound]
    exact idle call bound
  issued := by
    intro call generation number named
    rw [origins] at named
    exact fine.issued call generation number named
  unique := by
    intro first second id left right
    rw [origins] at left right
    exact fine.unique first second id left right
  pending := by
    intro generation number call held
    rw [origins]
    exact fine.pending generation number call held
  callFrames := by
    intro frame member
    simp only [origins]
    exact fine.callFrames frame member
  replyFrames := by
    intro entry member
    simp only [origins]
    exact fine.replyFrames entry member

theorem Correlated.setCall (fine : bridge.Correlated) {state : CallState}
    (active : state = bridge.calls call ∨ call < bridge.begun)
    (origin : state.origin = (bridge.calls call).origin)
    (fits : CallFits bridge.built call state) : (bridge.setCall call state).Correlated := by
  apply fine.recall
  · intro other bound
    by_cases same : other = call
    · subst same
      rw [Function.update_self, active.resolve_right (Nat.not_lt_of_le bound)]
    · rw [Function.update_of_ne same]
  · intro other
    by_cases same : other = call
    · subst same
      rw [Function.update_self, origin]
    · rw [Function.update_of_ne same]
  · intro other
    by_cases same : other = call
    · subst same
      rw [Function.update_self]
      exact fits
    · rw [Function.update_of_ne same]
      exact fine.calls other

theorem Correlated.setPending (fine : bridge.Correlated) {generation : Nat}
    {pending : OrderedDict Nat Nat}
    (known : ∀ number call, pending.get? number = some call →
      (bridge.calls call).origin = some (generation, number)) :
    (bridge.setPending generation pending).Correlated := by
  have issuedSame : ∀ other, ((bridge.setPending generation pending).generations other).issued =
      (bridge.generations other).issued := by
    intro other
    by_cases same : other = generation <;> simp [Bridge.setPending, same]
  have runningSame : ∀ other, ((bridge.setPending generation pending).generations other).running =
      (bridge.generations other).running := by
    intro other
    by_cases same : other = generation <;> simp [Bridge.setPending, same]
  refine ⟨fine.currentLatest, fine.unpublishedLatest, ?_, fine.calls, fine.unbegun, ?_, fine.unique,
    ?_, fine.callFrames, fine.replyFrames⟩
  · intro other running
    rw [runningSame] at running
    exact fine.runningLatest other running
  · intro caller other number named
    rw [issuedSame]
    exact fine.issued caller other number named
  · intro other number caller held
    by_cases same : other = generation
    · subst same
      simp only [Bridge.setPending, Function.update_self] at held
      exact known number caller held
    · simp only [Bridge.setPending, Function.update_of_ne same] at held
      exact fine.pending other number caller held

/-- Taking entries out of a table. -/
theorem Correlated.erasePending (fine : bridge.Correlated) (generation number : Nat) :
    (bridge.setPending generation
      ((bridge.generations generation).pending.erase number)).Correlated := by
  apply fine.setPending
  intro other caller held
  rw [OrderedDict.get?_erase] at held
  by_cases same : other = number
  · simp [same] at held
  · simp only [same, if_false] at held
    exact fine.pending generation other caller held

theorem CallFits.post {built : Nat} {state : CallState} {outcome : Outcome}
    (fits : CallFits built call state) (own : ∀ origin, outcome = .reply origin → origin = call) :
    CallFits built call (state.post outcome) := by
  unfold CallState.post
  split
  · refine ⟨fits.unsent, fits.held, fits.named, ?_, fits.returned⟩
    intro origin stored
    exact own origin (Option.some.inj stored)
  · exact fits

theorem post_origin (state : CallState) (outcome : Outcome) :
    (state.post outcome).origin = state.origin := by
  unfold CallState.post
  split <;> rfl

theorem Correlated.post (fine : bridge.Correlated) {outcome : Outcome}
    (own : ∀ origin, outcome = .reply origin → origin = call) :
    (bridge.post call outcome).Correlated := by
  apply fine.setCall
  · by_cases listens : (bridge.calls call).listens = true
    · right
      apply fine.begun_of_phase
      intro idle
      rw [CallState.listens, idle] at listens
      exact absurd listens (by simp)
    · left
      rw [CallState.post, if_neg listens]
  · exact post_origin _ _
  · exact (fine.calls call).post own

/-- Moving on to a phase that keeps the id and needs no frame of its own. -/
theorem Correlated.setPhase (fine : bridge.Correlated) {phase : Phase}
    (active : (bridge.calls call).phase ≠ .returned .error)
    (unsent : ∀ generation, Phase.unsentIn phase generation →
      Phase.unsentIn (bridge.calls call).phase generation)
    (held : ∀ generation, phase ≠ .held generation)
    (named : ∀ id, Phase.id phase = some id → Phase.id (bridge.calls call).phase = some id)
    (returned : ∀ origin, phase = .returned (.reply origin) →
      (bridge.calls call).inbox = some (.reply origin)) :
    (bridge.setPhase call phase).Correlated := by
  have fits := fine.calls call
  unfold Bridge.setPhase
  apply fine.setCall
  · exact .inr (fine.begun_of_phase active)
  · rfl
  refine ⟨?_, ?_, ?_, fits.inbox, ?_⟩
  · intro generation still
    exact fits.unsent generation (unsent generation still)
  · intro generation same
    exact absurd same (held generation)
  · intro id same
    exact fits.named id (named id same)
  · intro origin same
    exact fits.inbox origin (returned origin same)

/-! ### One move -/

theorem Correlated.build (fine : bridge.Correlated) (quiet : bridge.Quiet) (dialing : Nat) :
    { bridge with
      dialing := dialing
      generations := Function.update bridge.generations bridge.built
        { issued := 0, pending := .empty, running := true }
      built := bridge.built + 1
      unpublished := bridge.unpublished ++ [bridge.built] }.Correlated := by
  refine ⟨?_, ?_, ?_, ?_, fine.unbegun, ?_, fine.unique, ?_, ?_, ?_⟩
  · intro generation registered
    rw [quiet.unregistered] at registered
    exact absurd registered (by simp)
  · intro generation member
    simp only [quiet.published, List.nil_append, List.mem_singleton] at member
    simp [member]
  · intro generation running
    by_cases same : generation = bridge.built
    · simp [same]
    · simp only [Function.update_of_ne same, quiet.stopped] at running
      exact absurd running (by simp)
  · intro call
    have fits := fine.calls call
    refine ⟨?_, fits.held, fits.named, fits.inbox, fits.returned⟩
    intro generation still
    exact absurd still (quiet.sent call generation)
  · intro call generation number named
    have before := fine.issued call generation number named
    have older : generation ≠ bridge.built := by omega
    simp only [Function.update_of_ne older]
    omega
  · intro generation number caller held
    by_cases same : generation = bridge.built
    · simp [same] at held
    · simp only [Function.update_of_ne same] at held
      exact fine.pending generation number caller held
  · simp [quiet.noCalls]
  · simp [quiet.noReplies]

theorem Correlated.issueNumber (fine : bridge.Correlated) {generation : Nat}
    (held : (bridge.calls call).phase = .held generation)
    (bounded : (bridge.generations generation).issued + 1 < 2 ^ 64) :
    (bridge.issueNumber call generation).Correlated := by
  have fits := fine.calls call
  have unnamed := fits.held generation held
  have number : ((bridge.generations generation).issued + 1) % 2 ^ 64 =
      (bridge.generations generation).issued + 1 := Nat.mod_eq_of_lt bounded
  have latest : generation + 1 = bridge.built :=
    fits.unsent generation (by rw [held]; rfl)
  have begun : call < bridge.begun := by
    apply fine.begun_of_phase
    rw [held]
    simp
  have origins : ∀ other, ((bridge.issueNumber call generation).calls other).origin =
      if other = call then some (generation, (bridge.generations generation).issued + 1)
      else (bridge.calls other).origin := by
    intro other
    by_cases same : other = call
    · subst same
      simp only [Bridge.issueNumber, Bridge.setCall, number, if_true, Function.update_self]
    · simp [Bridge.issueNumber, Bridge.setCall, same]
  have keeps : ∀ {other : Nat} {id}, (bridge.calls other).origin = some id →
      ((bridge.issueNumber call generation).calls other).origin = some id := by
    intro other id named
    rw [origins, if_neg, named]
    intro same
    rw [same, unnamed] at named
    exact absurd named (by simp)
  have generations : ∀ other, ((bridge.issueNumber call generation).generations other).pending =
        (bridge.generations other).pending ∧
      ((bridge.issueNumber call generation).generations other).running =
        (bridge.generations other).running ∧
      ((bridge.issueNumber call generation).generations other).issued =
        (bridge.generations other).issued + (if other = generation then 1 else 0) := by
    intro other
    by_cases same : other = generation
    · subst same
      simp [Bridge.issueNumber, Bridge.setCall]
    · simp [Bridge.issueNumber, Bridge.setCall, same]
  refine ⟨fine.currentLatest, fine.unpublishedLatest, ?_, ?_, ?_, ?_, ?_, ?_, ?_, ?_⟩
  · intro other running
    rw [(generations other).2.1] at running
    exact fine.runningLatest other running
  · intro other
    by_cases same : other = call
    · subst same
      simp only [Bridge.issueNumber, Bridge.setCall, Function.update_self, number]
      refine ⟨?_, by simp, by simp [Phase.id], fits.inbox, by simp⟩
      intro later still
      rw [← still]
      exact latest
    · simp only [Bridge.issueNumber, Bridge.setCall, Function.update_of_ne same]
      exact fine.calls other
  · intro other bound
    have different : other ≠ call := by
      simp only [Bridge.issueNumber, Bridge.setCall] at bound
      omega
    simp only [Bridge.issueNumber, Bridge.setCall, Function.update_of_ne different]
    exact fine.unbegun other bound
  · intro other later issuedNumber named
    rw [(generations later).2.2]
    rw [origins] at named
    by_cases same : other = call
    · simp only [same, if_true, Option.some.injEq, Prod.mk.injEq] at named
      have sameGeneration : later = generation := named.1.symm
      subst sameGeneration
      refine ⟨?_, ?_⟩
      · simp only [Bridge.issueNumber, Bridge.setCall]
        omega
      · simp only [if_true]
        omega
    · simp only [same, if_false] at named
      have before := fine.issued other later issuedNumber named
      refine ⟨before.1, ?_⟩
      omega
  · intro first second id left right
    -- the new number is past every number of its generation
    have fresh : ∀ other, (bridge.calls other).origin ≠
        some (generation, (bridge.generations generation).issued + 1) := by
      intro other named
      have bound := (fine.issued other _ _ named).2
      omega
    rw [origins] at left right
    by_cases leftSame : first = call
    · by_cases rightSame : second = call
      · rw [leftSame, rightSame]
      · simp only [leftSame, if_true] at left
        simp only [rightSame, if_false] at right
        exact absurd (right.trans left.symm) (fresh second)
    · simp only [leftSame, if_false] at left
      by_cases rightSame : second = call
      · simp only [rightSame, if_true] at right
        exact absurd (left.trans right.symm) (fresh first)
      · simp only [rightSame, if_false] at right
        exact fine.unique first second id left right
  · intro other tableNumber caller stored
    rw [(generations other).1] at stored
    exact keeps (fine.pending other tableNumber caller stored)
  · intro frame member
    obtain ⟨later, isLatest, named⟩ := fine.callFrames frame member
    exact ⟨later, isLatest, keeps named⟩
  · intro entry member
    obtain ⟨later, isLatest, named⟩ := fine.replyFrames entry member
    exact ⟨later, isLatest, keeps named⟩

theorem Correlated.setRunning (fine : bridge.Correlated) (generation : Nat) :
    (bridge.setRunning generation false).Correlated := by
  have same : ∀ other, ((bridge.setRunning generation false).generations other).pending =
        (bridge.generations other).pending ∧
      ((bridge.setRunning generation false).generations other).issued =
        (bridge.generations other).issued := by
    intro other
    by_cases stopped : other = generation <;> simp [Bridge.setRunning, stopped]
  refine ⟨fine.currentLatest, fine.unpublishedLatest, ?_, fine.calls, fine.unbegun, ?_, fine.unique,
    ?_, fine.callFrames, fine.replyFrames⟩
  · intro other running
    by_cases stopped : other = generation
    · simp [Bridge.setRunning, stopped] at running
    · simp only [Bridge.setRunning, Function.update_of_ne stopped] at running
      exact fine.runningLatest other running
  · intro caller other number named
    rw [(same other).2]
    exact fine.issued caller other number named
  · intro other number caller held
    rw [(same other).1] at held
    exact fine.pending other number caller held

/-- The read loop of the latest generation meets only frames of that generation, and
a number of that generation names one call. -/
theorem Correlated.deliverFrame (fine : bridge.Correlated) {generation : Nat} {frame : Frame}
    (latest : generation + 1 = bridge.built)
    (known : ∃ other, other + 1 = bridge.built ∧
      (bridge.calls frame.call).origin = some (other, frame.number)) (failed : Bool) :
    (bridge.deliverFrame generation frame failed).Correlated := by
  unfold Bridge.deliverFrame
  cases held : (bridge.generations generation).pending.get? frame.number with
  | none => exact fine
  | some caller =>
    obtain ⟨other, otherLatest, named⟩ := known
    have sameGeneration : other = generation := by omega
    subst sameGeneration
    have same : frame.call = caller :=
      fine.unique _ _ _ named (fine.pending _ _ _ held)
    apply (fine.erasePending other frame.number).post
    intro origin outcome
    cases failed with
    | true => exact absurd outcome (by simp)
    | false =>
      simp only [Bool.false_eq_true, if_false, Outcome.reply.injEq] at outcome
      rw [← outcome, same]

theorem Correlated.dropped (fine : bridge.Correlated) (generation number : Nat) :
    (bridge.dropped generation number).Correlated := by
  unfold Bridge.dropped
  split
  · exact fine
  · apply fine.post
    intro origin impossible
    exact absurd impossible (by simp)

theorem dropped_origin (generation number other : Nat) :
    ((bridge.dropped generation number).calls other).origin = (bridge.calls other).origin := by
  unfold Bridge.dropped
  split
  · rfl
  · rename_i caller _
    by_cases same : other = caller
    · subst same
      simp [Bridge.post, Bridge.setCall, post_origin]
    · simp [Bridge.post, Bridge.setCall, same]

theorem dropped_phase (generation number other : Nat) :
    ((bridge.dropped generation number).calls other).phase = (bridge.calls other).phase := by
  unfold Bridge.dropped
  split
  · rfl
  · rename_i caller _
    by_cases same : other = caller
    · subst same
      simp only [Bridge.post, Bridge.setCall, Function.update_self, CallState.post]
      split <;> rfl
    · simp [Bridge.post, Bridge.setCall, same]

theorem Correlated.insertPending (fine : bridge.Correlated) {generation number : Nat}
    (numbered : (bridge.calls call).phase = .numbered generation number) :
    (((bridge.dropped generation number).setPending generation
      ((bridge.generations generation).pending.insert number call)).setPhase call
        (.inserted generation number)).Correlated := by
  have named : (bridge.calls call).origin = some (generation, number) := by
    apply (fine.calls call).named
    rw [numbered]
    rfl
  have stored : ((bridge.dropped generation number).setPending generation
      ((bridge.generations generation).pending.insert number call)).Correlated := by
    apply (fine.dropped generation number).setPending
    intro other caller held
    rw [dropped_origin]
    rw [OrderedDict.get?_insert] at held
    by_cases same : other = number
    · simp only [same, if_true, Option.some.injEq] at held
      rw [← held, same]
      exact named
    · simp only [same, if_false] at held
      exact fine.pending generation other caller held
  have phase : (((bridge.dropped generation number).setPending generation
      ((bridge.generations generation).pending.insert number call)).calls call).phase =
        .numbered generation number := (dropped_phase generation number call).trans numbered
  apply stored.setPhase
  · rw [phase]
    simp
  · intro later still
    rw [phase]
    exact still
  · simp
  · intro id same
    rw [phase]
    exact same
  · simp

theorem Correlated.finish (fine : bridge.Correlated) {generation number : Nat}
    (active : (bridge.calls call).phase ≠ .returned .error) :
    ((bridge.setPending generation
      ((bridge.generations generation).pending.erase number)).setPhase call
        (.returned .error)).Correlated := by
  apply (fine.erasePending generation number).setPhase
  · exact active
  · intro later impossible
    exact absurd impossible (by simp [Phase.unsentIn])
  · simp
  · simp [Phase.id]
  · simp

theorem Correlated.withFrames (fine : bridge.Correlated) {callFrames : List Frame}
    {replyFrames : List (Frame × Bool)}
    (callsKnown : ∀ frame ∈ callFrames, ∃ generation, generation + 1 = bridge.built ∧
      (bridge.calls frame.call).origin = some (generation, frame.number))
    (repliesKnown : ∀ entry ∈ replyFrames, ∃ generation, generation + 1 = bridge.built ∧
      (bridge.calls entry.1.call).origin = some (generation, entry.1.number)) :
    { bridge with callFrames := callFrames, replyFrames := replyFrames }.Correlated :=
  ⟨fine.currentLatest, fine.unpublishedLatest, fine.runningLatest, fine.calls, fine.unbegun,
    fine.issued, fine.unique, fine.pending, callsKnown, repliesKnown⟩

theorem Correlated.drain (fine : bridge.Correlated) (generation : Nat) :
    (bridge.step (.drain generation)).Correlated := by
  have emptied : (bridge.setPending generation .empty).Correlated := by
    apply fine.setPending
    simp
  apply emptied.recall
  · intro other bound
    have idle := fine.unbegun other bound
    simp [Bridge.setPending, idle, CallState.post, CallState.listens]
  · intro other
    split
    · exact post_origin _ _
    · rfl
  · intro other
    split
    · apply (fine.calls other).post
      simp
    · exact fine.calls other

theorem Correlated.start (fine : bridge.Correlated) : (bridge.step .start).Correlated := by
  have idle := fine.unbegun bridge.begun (Nat.le_refl _)
  have keeps : ∀ {other : Nat} {id}, (bridge.calls other).origin = some id →
      ((bridge.step .start).calls other).origin = some id := by
    intro other id named
    have different : other ≠ bridge.begun := by
      intro same
      rw [same, idle] at named
      exact absurd named (by simp)
    simp only [step, Bridge.setCall, Function.update_of_ne different]
    exact named
  have older : ∀ {other : Nat} {id}, ((bridge.step .start).calls other).origin = some id →
      (bridge.calls other).origin = some id := by
    intro other id named
    by_cases same : other = bridge.begun
    · simp [step, Bridge.setCall, same] at named
    · simpa only [step, Bridge.setCall, Function.update_of_ne same] using named
  refine ⟨fine.currentLatest, fine.unpublishedLatest, fine.runningLatest, ?_, ?_, ?_, ?_, ?_, ?_, ?_⟩
  · intro other
    by_cases same : other = bridge.begun
    · subst same
      simp only [step, Bridge.setCall, Function.update_self]
      cases registered : bridge.current with
      | none => constructor <;> simp [Phase.unsentIn, Phase.id]
      | some generation =>
        have latest := fine.currentLatest generation registered
        constructor <;> simp [Phase.unsentIn, Phase.id, latest]
    · simp only [step, Bridge.setCall, Function.update_of_ne same]
      exact fine.calls other
  · intro other bound
    have later : bridge.begun + 1 ≤ other := bound
    have different : other ≠ bridge.begun := by omega
    simp only [step, Bridge.setCall, Function.update_of_ne different]
    exact fine.unbegun other (by omega)
  · intro other generation number named
    exact fine.issued other generation number (older named)
  · intro first second id left right
    exact fine.unique first second id (older left) (older right)
  · intro generation number caller held
    exact keeps (fine.pending generation number caller held)
  · intro frame member
    obtain ⟨generation, latest, named⟩ := fine.callFrames frame member
    exact ⟨generation, latest, keeps named⟩
  · intro entry member
    obtain ⟨generation, latest, named⟩ := fine.replyFrames entry member
    exact ⟨generation, latest, keeps named⟩

theorem Correlated.send (fine : bridge.Correlated) {generation number : Nat}
    (inserted : (bridge.calls call).phase = .inserted generation number) :
    { bridge.setPhase call (.waiting generation number) with
      callFrames := bridge.callFrames ++ [Frame.mk number call] }.Correlated := by
  have named : (bridge.calls call).origin = some (generation, number) := by
    apply (fine.calls call).named
    rw [inserted]
    rfl
  have latest : generation + 1 = bridge.built := by
    apply (fine.calls call).unsent
    rw [inserted]
    rfl
  have moved : (bridge.setPhase call (.waiting generation number)).Correlated := by
    apply fine.setPhase
    · simp [inserted]
    · intro later impossible
      exact absurd impossible (by simp [Phase.unsentIn])
    · simp
    · intro id same
      rw [inserted]
      exact same
    · simp
  have movedOrigin : ((bridge.setPhase call (.waiting generation number)).calls call).origin =
      some (generation, number) := by
    simp [Bridge.setPhase, Bridge.setCall, named]
  apply moved.withFrames
  · intro frame member
    rcases List.mem_append.mp member with old | new
    · exact moved.callFrames frame old
    · rw [List.mem_singleton.mp new]
      exact ⟨generation, latest, movedOrigin⟩
  · exact moved.replyFrames

/-- One careful move keeps the invariant. -/
theorem Correlated.step (fine : bridge.Correlated) (move : Move) (careful : bridge.Careful move) :
    (bridge.step move).Correlated := by
  have expire : ∀ {caller generation number}, (bridge.calls caller).phase = .waiting generation number →
      (bridge.setPhase caller (.expired generation number)).Correlated := by
    intro caller generation number waiting
    apply fine.setPhase
    · simp [waiting]
    · intro later impossible
      exact absurd impossible (by simp [Phase.unsentIn])
    · simp
    · intro id same
      rw [waiting]
      exact same
    · simp
  cases move with
  | bootCheck =>
    simp only [Bridge.step]
    split
    · exact { fine with }
    · exact fine
  | bootFail => exact { fine with }
  | bootBuild =>
    simp only [Bridge.step]
    split
    · exact fine
    · exact fine.build careful _
  | publish generation =>
    simp only [Bridge.step]
    split
    · rename_i member
      refine { fine with currentLatest := ?_, unpublishedLatest := ?_ }
      · intro other registered
        rw [← Option.some.inj registered]
        exact fine.unpublishedLatest generation member
      · intro other kept
        exact fine.unpublishedLatest other (List.mem_filter.mp kept).1
    · exact fine
  | shutdown => exact { fine with currentLatest := by simp [Bridge.step] }
  | stop generation => exact fine.setRunning generation
  | drain generation => exact fine.drain generation
  | start => exact fine.start
  | issue caller =>
    simp only [Bridge.step]
    split
    · rename_i generation held
      exact fine.issueNumber held (careful generation held)
    · exact fine
  | insert caller =>
    simp only [Bridge.step]
    split
    · rename_i generation number numbered
      exact fine.insertPending numbered
    · exact fine
  | send caller =>
    simp only [Bridge.step]
    split
    · rename_i generation number inserted
      exact fine.send inserted
    · exact fine
  | sendFail caller =>
    simp only [Bridge.step]
    split
    · rename_i generation number inserted
      apply fine.finish
      simp [inserted]
    · exact fine
  | timeout caller =>
    simp only [Bridge.step]
    split
    · rename_i generation number waiting _
      exact expire waiting
    · exact fine
  | receive caller =>
    simp only [Bridge.step]
    split
    · rename_i generation number origin waiting stored
      apply fine.setPhase
      · simp [waiting]
      · intro later impossible
        exact absurd impossible (by simp [Phase.unsentIn])
      · simp
      · simp [Phase.id]
      · intro other same
        rw [stored]
        simpa using same
    · rename_i generation number waiting _
      exact expire waiting
    · exact fine
  | cleanup caller =>
    simp only [Bridge.step]
    split
    · rename_i generation number expired
      apply fine.finish
      simp [expired]
    · exact fine
  | answer index failed =>
    simp only [Bridge.step]
    split
    · exact fine
    · rename_i frame listed
      apply fine.withFrames fine.callFrames
      intro entry member
      rcases List.mem_append.mp member with old | new
      · exact fine.replyFrames entry old
      · rw [List.mem_singleton.mp new]
        exact fine.callFrames frame (List.mem_of_getElem? listed)
  | loseCall index =>
    apply fine.withFrames _ fine.replyFrames
    intro frame member
    exact fine.callFrames frame (List.mem_of_mem_eraseIdx member)
  | loseReply index =>
    apply fine.withFrames fine.callFrames
    intro entry member
    exact fine.replyFrames entry (List.mem_of_mem_eraseIdx member)
  | deliver generation index =>
    simp only [Bridge.step]
    split
    · exact fine
    · rename_i frame failed listed
      split
      · rename_i running
        have taken : { bridge with replyFrames := bridge.replyFrames.eraseIdx index }.Correlated := by
          apply fine.withFrames fine.callFrames
          intro entry member
          exact fine.replyFrames entry (List.mem_of_mem_eraseIdx member)
        exact taken.deliverFrame (fine.runningLatest generation running)
          (fine.replyFrames _ (List.mem_of_getElem? listed)) failed
      · exact fine

theorem Correlated.run (fine : bridge.Correlated) (moves : List Move)
    (careful : CarefulRun bridge moves) : (bridge.run moves).Correlated := by
  induction moves generalizing bridge with
  | nil => exact fine
  | cons move rest ih => exact ih (fine.step move careful.1) careful.2

/-- In every careful run each forward that returned a reply returned its own. -/
theorem careful_run_own_replies (moves : List Move) (careful : CarefulRun fresh moves) :
    (fresh.run moves).OwnReplies := by
  intro call origin returned
  exact ((fresh_correlated.run moves careful).calls call).returned origin returned

/-! ### A late reply across a reconnect -/

/-- Boot, and one forward up to its frame on the wire. -/
def bootAndForward (generation call : Nat) : List Move :=
  [.bootCheck, .bootBuild, .publish generation, .start, .issue call, .insert call, .send call]

/-- The first call times out, the bridge reconnects, and the second call gets the late
reply to the first: both went out under the same id. -/
theorem late_reply_crosses_reconnect :
    ¬ (fresh.run (bootAndForward 0 0 ++
      [.timeout 0, .cleanup 0, .shutdown, .stop 0, .drain 0] ++
      bootAndForward 1 1 ++ [.answer 0 false, .deliver 1 0, .receive 1])).OwnReplies := by
  intro own
  exact absurd (own 1 0 (by decide)) (by decide)

/-- One call and its reply, then a reconnect on the quiet bridge, up to the dial. -/
def firstCall : List Move :=
  bootAndForward 0 0 ++ [.answer 0 false, .loseCall 0, .deliver 0 0, .receive 0, .shutdown, .stop 0,
    .bootCheck]

def secondCall : List Move :=
  [.bootBuild, .publish 1, .start, .issue 1, .insert 1, .send 1, .answer 0 false, .deliver 1 0,
    .receive 1]

theorem carefulRun_append (early late : List Move) :
    CarefulRun bridge (early ++ late) ↔
      CarefulRun bridge early ∧ CarefulRun (bridge.run early) late := by
  induction early generalizing bridge with
  | nil => simp [CarefulRun, run]
  | cons move rest ih =>
    simp only [List.cons_append, CarefulRun, ih, and_assoc]
    rfl

/-- Whether a bridge is quiet shows in its latest generation and its begun calls. -/
theorem Correlated.quiet (fine : bridge.Correlated) (unregistered : bridge.current = none)
    (published : bridge.unpublished = [])
    (stopped : ∀ generation < bridge.built, (bridge.generations generation).running = false)
    (finished : ∀ call < bridge.begun, ∃ outcome, (bridge.calls call).phase = .returned outcome)
    (noCalls : bridge.callFrames = []) (noReplies : bridge.replyFrames = []) : bridge.Quiet := by
  refine ⟨unregistered, published, ?_, ?_, noCalls, noReplies⟩
  · intro generation
    by_contra running
    have latest := fine.runningLatest generation (by simpa using running)
    exact running (stopped generation (by omega))
  · intro call generation still
    by_cases begun : call < bridge.begun
    · obtain ⟨outcome, returned⟩ := finished call begun
      rw [returned] at still
      exact still
    · rw [fine.unbegun call (Nat.le_of_not_lt begun)] at still
      exact still

private theorem issue_careful (generation : Nat) (held : (bridge.calls call).phase = .held generation)
    (bounded : (bridge.generations generation).issued + 1 < 2 ^ 64) :
    bridge.Careful (.issue call) := by
  intro other otherHeld
  have same : generation = other := by simpa [held] using otherHeld
  rw [← same]
  exact bounded

theorem firstCall_careful : CarefulRun fresh firstCall := by
  refine ⟨trivial, ?_, trivial, trivial, ?_, trivial, trivial, trivial, trivial, trivial, trivial,
    trivial, trivial, trivial, trivial⟩
  · have dialing := fresh_correlated.step .bootCheck trivial
    apply dialing.quiet rfl rfl (by decide) _ rfl rfl
    intro call begun
    exact absurd begun (Nat.not_lt_zero call)
  · exact issue_careful 0 (by decide) (by decide)

theorem secondCall_careful : CarefulRun (fresh.run firstCall) secondCall := by
  refine ⟨?_, trivial, trivial, ?_, trivial, trivial, trivial, trivial, trivial, trivial⟩
  · have fine := fresh_correlated.run firstCall firstCall_careful
    refine fine.quiet (by decide) (by decide) (by decide) ?_ (by decide) (by decide)
    intro call begun
    have first : call = 0 := by
      have bound : (fresh.run firstCall).begun = 1 := by decide
      omega
    exact ⟨.reply 0, by rw [first]; decide⟩
  · exact issue_careful 1 (by decide) (by decide)

/-- With the reconnect on a quiet bridge, the second call returns its own reply. -/
theorem quiet_reconnect_own_replies :
    CarefulRun fresh (firstCall ++ secondCall) ∧
      ((fresh.run (firstCall ++ secondCall)).calls 1).phase = .returned (.reply 1) ∧
      (fresh.run (firstCall ++ secondCall)).OwnReplies := by
  have careful : CarefulRun fresh (firstCall ++ secondCall) :=
    (carefulRun_append firstCall secondCall).mpr ⟨firstCall_careful, secondCall_careful⟩
  exact ⟨careful, by decide, careful_run_own_replies _ careful⟩

end Fantastic.Rust.Bridge
