import Fantastic.Ts.Federation

/-!
# When the two tables agree

Each operation is looked at from a state in which the watcher sets and the connections agree:
it leaves them in agreement, and takes nothing from anyone, exactly when it meets the
condition. A run is then sound exactly when each of its operations does.
-/

namespace Fantastic.Ts

/-! ### What a removal takes out -/

theorem removedIds_append (first second : List StateEvent) :
    removedIds (first ++ second) = removedIds first ++ removedIds second :=
  List.filterMap_append

theorem Kernel.held_removeWithin {fuel : Nat} {active : List String} {kernel : Kernel}
    {id other : String} :
    (removeWithin fuel active kernel id).kernel.held other =
      if other ∈ removedIds (removeWithin fuel active kernel id).events then none
      else kernel.held other := by
  induction fuel generalizing active kernel id with
  | zero => rfl
  | succ fuel ih =>
    unfold removeWithin
    split
    case isTrue => rfl
    case isFalse =>
      split
      case h_1 => rfl
      case h_2 agent found =>
        let Gone (done : Removal) : Prop := done.kernel.held other =
          if other ∈ removedIds done.events then none else kernel.held other
        have turn (done : Removal) (child : String) (before : Gone done) :
            Gone (done.andThen (removeWithin fuel (id :: active)) child) := by
          unfold Removal.andThen
          split
          · simp only [Gone, removedIds_append, List.mem_append] at before ⊢
            rw [ih, before]
            by_cases late : other ∈
                removedIds (removeWithin fuel (id :: active) done.kernel child).events
            · simp [late]
            · simp [late]
          · exact before
        have below := @andThen_foldl (removeWithin fuel (id :: active)) Gone turn
          agent.children ⟨kernel, [], true⟩ rfl
        simp only
        split
        · simp only [held_removeOne, removedIds_append, List.mem_append]
          rw [below]
          by_cases same : other = id
          · simp [same, removedIds]
          · simp [same, removedIds]
        · exact below

theorem Kernel.held_remove (kernel : Kernel) (id other : String) :
    (kernel.remove id).kernel.held other =
      if other ∈ removedIds (kernel.remove id).events then none else kernel.held other :=
  held_removeWithin

namespace Federation

variable {bundles : List String} {control : String} {state other : Federation}

/-! ### The pieces of an operation -/

theorem mem_conns_connFor (state : Federation) (endpoint src : String) :
    (state.connFor endpoint).conns.contains src = true ↔
      src = endpoint ∨ state.conns.contains src = true := by
  unfold connFor
  split
  case h_1 conn found =>
    constructor
    · exact .inr
    · intro either
      cases either with
      | inl same =>
        rw [same, OrderedDict.contains_iff]
        exact OrderedDict.mem_keys_iff.mpr ⟨conn, found⟩
      | inr there => exact there
  case h_2 =>
    rw [OrderedDict.contains_iff, OrderedDict.contains_iff]
    exact OrderedDict.mem_keys_insert

theorem connFor_watchers (state : Federation) (endpoint : String) :
    (state.connFor endpoint).watchers = state.watchers := by
  unfold connFor
  split <;> rfl

theorem connFor_isRemote (state : Federation) (endpoint src : String) :
    (state.connFor endpoint).isRemote src = state.isRemote src := by
  unfold connFor
  split <;> rfl

theorem connFor_of_contains {endpoint : String} (there : state.conns.contains endpoint = true) :
    state.connFor endpoint = state := by
  obtain ⟨conn, found⟩ := OrderedDict.mem_keys_iff.mp (OrderedDict.contains_iff.mp there)
  unfold connFor
  rw [found]

/-- Only the table of connections matters, beside the watchers and the agents. -/
theorem Balanced.congr (balanced : state.Balanced control)
    (remote : ∀ src, other.isRemote src = state.isRemote src)
    (watchers : other.watchers = state.watchers)
    (more : ∀ src, state.conns.contains src = true → other.conns.contains src = true)
    (fewer : ∀ src, src ≠ control → other.conns.contains src = true →
      state.conns.contains src = true) : other.Balanced control := by
  constructor
  · intro src isRemote watched
    rw [remote] at isRemote
    rw [watchers] at watched
    exact more src (balanced.opened isRemote watched)
  · intro src apart there
    rw [remote, watchers]
    exact balanced.needed apart (fewer src apart there)

/-- The control endpoint may get its connection at any time. -/
theorem Balanced.dialControl (balanced : state.Balanced control) :
    (state.connFor control).Balanced control := by
  apply balanced.congr (connFor_isRemote state control) (connFor_watchers state control)
  · intro src there
    exact (mem_conns_connFor state control src).mpr (.inr there)
  · intro src apart there
    cases (mem_conns_connFor state control src).mp there with
    | inl same => exact absurd same apart
    | inr before => exact before

theorem isRemote_register (state : Federation) (init : AgentInit) (own : Bool) (src : String) :
    (state.register bundles init own).isRemote src =
      if src = init.id then !init.handledBy bundles own else state.isRemote src := by
  simp only [isRemote, register, Kernel.held_register, Function.update_apply]
  by_cases same : src = init.id
  · simp only [if_pos same]
  · simp only [if_neg same]

theorem isRemote_updateMeta (state : Federation) (id : String) (patch : Dict) (src : String) :
    isRemote { state with kernel := (state.kernel.updateMeta id patch).1 } src =
      state.isRemote src := by
  simp only [isRemote, Kernel.held_updateMeta]
  by_cases same : src = id
  · simp only [same]
    cases state.kernel.held id with
    | none => rfl
    | some agent => rfl
  · simp only [if_neg same]

theorem isRemote_remove (state : Federation) (id src : String) :
    (state.remove id).isRemote src =
      if src ∈ removedIds (state.kernel.remove id).events then true else state.isRemote src := by
  simp only [isRemote, remove, Kernel.held_remove]
  by_cases gone : src ∈ removedIds (state.kernel.remove id).events
  · simp only [if_pos gone]
  · simp only [if_neg gone]

theorem load_eq (state : Federation) (records : List Dict) (version : Int) :
    (∃ rootId, validateRecords records version = .ok rootId) ∧
        (state.load bundles records version).watchers = (fun _ => []) ∧
        (state.load bundles records version).conns = state.conns ∨
      (¬ ∃ rootId, validateRecords records version = .ok rootId) ∧
        state.load bundles records version = state := by
  cases valid : validateRecords records version with
  | error problem =>
    right
    constructor
    · intro found
      obtain ⟨rootId, impossible⟩ := found
      cases impossible
    · simp only [load, Kernel.load, valid, Except.bind]
  | ok rootId =>
    left
    refine ⟨⟨rootId, rfl⟩, ?_⟩
    simp only [load, Kernel.load, valid, Except.bind]
    cases records.reverse.find? isTop with
    | none => exact ⟨rfl, rfl⟩
    | some rootRecord => exact ⟨rfl, rfl⟩

theorem Spares.refl (state : Federation) : state.Spares state :=
  ⟨fun _ _ same => same, fun _ _ _ same => same⟩

/-! ### One operation -/

section Operations

variable (balanced : state.Balanced control)

include balanced

theorem Balanced.register_iff (init : AgentInit) (own : Bool) :
    (state.register bundles init own).Balanced control ↔
      state.Careful bundles control (.register init own) := by
  constructor
  · intro after watched
    split
    case isTrue handled =>
      by_contra broken
      rw [not_or, Bool.not_eq_false] at broken
      obtain ⟨apart, remote⟩ := broken
      have kept := (after.needed apart (balanced.opened remote watched)).1
      rw [isRemote_register, if_pos rfl, handled] at kept
      cases kept
    case isFalse bare =>
      right
      apply after.opened
      · rw [isRemote_register, if_pos rfl, Bool.not_eq_true']
        exact Bool.eq_false_iff.mpr bare
      · exact watched
  · intro careful
    constructor
    · intro src remote watched
      rw [isRemote_register] at remote
      split at remote
      case isFalse => exact balanced.opened remote watched
      case isTrue same =>
        subst same
        have needed := careful watched
        rw [Bool.not_eq_true'] at remote
        rw [remote] at needed
        cases needed with
        | inl before => exact balanced.opened before watched
        | inr there => exact there
    · intro src apart there
      obtain ⟨remote, watched⟩ := balanced.needed apart there
      refine ⟨?_, watched⟩
      rw [isRemote_register]
      split
      case isFalse => exact remote
      case isTrue same =>
        subst same
        have needed := careful watched
        split at needed
        case isFalse bare => simpa using bare
        case isTrue =>
          cases needed with
          | inl same => exact absurd same apart
          | inr here =>
            rw [here] at remote
            cases remote

theorem Balanced.remove_iff (id : String) :
    (state.remove id).Balanced control ↔ state.Careful bundles control (.remove id) := by
  constructor
  · intro after src gone
    by_contra broken
    rw [not_or, not_or, Bool.not_eq_false] at broken
    obtain ⟨apart, watched, remote⟩ := broken
    have kept := (after.needed apart (balanced.opened remote watched)).2
    simp only [remove, if_pos gone] at kept
    exact kept rfl
  · intro careful
    constructor
    · intro src remote watched
      rw [isRemote_remove] at remote
      simp only [remove] at watched
      split at watched
      case isTrue => exact absurd rfl watched
      case isFalse kept =>
        rw [if_neg kept] at remote
        exact balanced.opened remote watched
    · intro src apart there
      obtain ⟨remote, watched⟩ := balanced.needed apart there
      have kept : src ∉ removedIds (state.kernel.remove id).events := by
        intro gone
        obtain same | none | here := careful src gone
        · exact apart same
        · exact watched none
        · rw [here] at remote
          cases remote
      rw [isRemote_remove, if_neg kept]
      simp only [remove, if_neg kept]
      exact ⟨remote, watched⟩

theorem Balanced.load_iff (records : List Dict) (version : Int) :
    (state.load bundles records version).Balanced control ↔
      state.Careful bundles control (.load records version) := by
  obtain ⟨valid, watchers, conns⟩ | ⟨invalid, same⟩ := @load_eq bundles state records version
  · constructor
    · intro after _ src apart
      by_contra broken
      rw [not_or, Bool.not_eq_false] at broken
      obtain ⟨watched, remote⟩ := broken
      have kept := after.needed apart (by
        rw [conns]
        exact balanced.opened remote watched)
      rw [watchers] at kept
      exact kept.2 rfl
    · intro careful
      constructor
      · intro src _ watched
        rw [watchers] at watched
        exact absurd rfl watched
      · intro src apart there
        rw [conns] at there
        obtain ⟨remote, watched⟩ := balanced.needed apart there
        cases careful valid src apart with
        | inl none => exact absurd none watched
        | inr here =>
          rw [here] at remote
          cases remote
  · rw [same]
    apply iff_of_true balanced
    intro valid
    exact absurd valid invalid

theorem Balanced.watch (src watcher : String) : (state.watch src watcher).Balanced control := by
  have watched_of (id : String) (present : List String) {name : String} (apart : name ≠ id) :
      (state.setWatchers id present).watchers name = state.watchers name :=
    Function.update_of_ne apart ..
  unfold Federation.watch
  simp only
  split
  case isTrue first =>
    obtain ⟨remote, none⟩ := first
    constructor
    · intro name isRemote watched
      change (Federation.connFor _ _).isRemote name = true at isRemote
      change (Federation.connFor _ _).watchers name ≠ [] at watched
      rw [connFor_isRemote] at isRemote
      rw [connFor_watchers] at watched
      apply (mem_conns_connFor _ _ _).mpr
      by_cases same : name = state.kernel.resolve src
      · exact .inl same
      · rw [watched_of _ _ same] at watched
        exact .inr (balanced.opened isRemote watched)
    · intro name apart there
      change (Federation.connFor _ _).isRemote name = true ∧
        (Federation.connFor _ _).watchers name ≠ []
      rw [connFor_isRemote, connFor_watchers]
      by_cases same : name = state.kernel.resolve src
      · subst same
        refine ⟨remote, ?_⟩
        simp [setWatchers, none]
      · rw [watched_of _ _ same]
        cases (mem_conns_connFor _ _ _).mp there with
        | inl here => exact absurd here same
        | inr before => exact balanced.needed apart before
  case isFalse later =>
    constructor
    · intro name isRemote watched
      by_cases same : name = state.kernel.resolve src
      · subst same
        apply balanced.opened isRemote
        intro none
        exact later ⟨isRemote, none⟩
      · rw [watched_of _ _ same] at watched
        exact balanced.opened isRemote watched
    · intro name apart there
      obtain ⟨remote, watched⟩ := balanced.needed apart there
      refine ⟨remote, ?_⟩
      by_cases same : name = state.kernel.resolve src
      · subst same
        simp only [setWatchers, Function.update_self]
        split
        · exact watched
        · simp
      · rw [watched_of _ _ same]
        exact watched

/-- A source without watchers, and with no connection unless it is the control endpoint. -/
theorem Balanced.drop {id : String} (unwatched : other.watchers = Function.update state.watchers id [])
    (remote : ∀ src, other.isRemote src = state.isRemote src)
    (same : ∀ src, src ≠ id →
      (other.conns.contains src = true ↔ state.conns.contains src = true))
    (none : id ≠ control → other.conns.contains id = false) : other.Balanced control := by
  constructor
  · intro src isRemote watched
    rw [unwatched, Function.update_apply] at watched
    split at watched
    case isTrue => exact absurd rfl watched
    case isFalse apart =>
      rw [remote] at isRemote
      exact (same src apart).mpr (balanced.opened isRemote watched)
  · intro src apart there
    rw [unwatched, remote, Function.update_apply]
    by_cases here : src = id
    · subst here
      rw [none apart] at there
      cases there
    · rw [if_neg here]
      exact balanced.needed apart ((same src here).mp there)

theorem Balanced.unwatch_iff (src watcher : String) :
    (state.unwatch control src watcher).Balanced control ∧
        state.Spares (state.unwatch control src watcher) ↔
      state.Careful bundles control (.unwatch src watcher) := by
  simp only [Careful, isLast]
  unfold Federation.unwatch
  generalize state.kernel.resolve src = id
  simp only
  split
  case isTrue none =>
    apply iff_of_true ⟨balanced, .refl state⟩
    intro last
    exact absurd none last.1
  case isFalse watched =>
    split
    case isFalse stays =>
      apply iff_of_true
      · refine ⟨?_, .refl state⟩
        by_cases empty : (state.watchers id).filter (fun other => decide (other ≠ watcher)) = []
        · have here : state.isRemote id ≠ true := fun remote => stays ⟨empty, remote⟩
          rw [empty]
          apply @Balanced.drop _ state (state.setWatchers id []) balanced id rfl (fun _ => rfl)
            (fun _ _ => Iff.rfl)
          intro apart
          by_contra there
          rw [Bool.not_eq_false] at there
          exact here (balanced.needed apart there).1
        · constructor
          · intro name remote present
            by_cases same : name = id
            · subst same
              exact balanced.opened remote watched
            · simp only [setWatchers, Function.update_of_ne same] at present
              exact balanced.opened remote present
          · intro name apart there
            obtain ⟨remote, present⟩ := balanced.needed apart there
            refine ⟨remote, ?_⟩
            simp only [setWatchers, Function.update_apply]
            split
            · exact empty
            · exact present
      · intro last remote
        exact absurd ⟨last.2, remote⟩ stays
    case isTrue last =>
      obtain ⟨empty, remote⟩ := last
      rw [empty]
      unfold unwatchRemote
      split
      case isTrue isControl =>
        apply iff_of_true
        · refine ⟨?_, .refl state⟩
          apply @Balanced.drop _ state (state.setWatchers id []) balanced id rfl (fun _ => rfl)
            (fun _ _ => Iff.rfl)
          intro apart
          exact absurd isControl apart
        · intro _ _ apart
          exact absurd isControl apart
      case isFalse apart =>
        have there := balanced.opened remote watched
        obtain ⟨conn, found⟩ := OrderedDict.mem_keys_iff.mp (OrderedDict.contains_iff.mp there)
        change state.conns.get? id = some conn at found
        have found' : (state.setWatchers id []).conns.get? id = some conn := found
        simp only [found', found]
        constructor
        · intro sound _ _ _ held same
          cases same
          obtain ⟨_, calls, listeners⟩ := sound
          constructor
          · intro call rides
            have kept := calls call conn rides
            change (if state.riding call = some conn then none else state.riding call) = _ at kept
            rw [if_pos rides] at kept
            cases kept
          · intro listener listens
            cases shut : state.shut conn with
            | true => rfl
            | false =>
              have kept := listeners listener conn listens shut
              change Function.update state.shut conn true conn = false at kept
              rw [Function.update_self] at kept
              cases kept
        · intro careful
          obtain ⟨unridden, unheard⟩ := careful ⟨watched, trivial⟩ remote apart conn rfl
          constructor
          · apply balanced.drop
            · rfl
            · intro name
              rfl
            · intro name different
              rw [OrderedDict.contains_iff, OrderedDict.contains_iff]
              exact OrderedDict.mem_keys_erase.trans (and_iff_right different)
            · intro _
              rw [Bool.eq_false_iff]
              intro left
              exact (OrderedDict.mem_keys_erase.mp (OrderedDict.contains_iff.mp left)).1 rfl
          · constructor
            · intro call ridden rides
              change (if state.riding call = some conn then none else state.riding call) = _
              rw [if_neg (unridden call), rides]
            · intro listener heard listens open'
              change Function.update state.shut conn true heard = false
              rw [Function.update_apply]
              split
              case isTrue same =>
                subst same
                rw [unheard listener listens] at open'
                cases open'
              case isFalse => exact open'

theorem Balanced.forward (target : String) : (state.forward control target).Balanced control := by
  unfold Federation.forward
  simp only
  split
  · exact ⟨balanced.opened, balanced.needed⟩
  · have dialed := balanced.dialControl
    exact ⟨dialed.opened, dialed.needed⟩

theorem Balanced.onLifecycle_iff (endpoint : String) :
    (state.onLifecycle endpoint).Balanced control ↔
      endpoint = control ∨ state.conns.contains endpoint = true := by
  constructor
  · intro after
    by_contra broken
    rw [not_or] at broken
    have there : (state.onLifecycle endpoint).conns.contains endpoint = true :=
      (mem_conns_connFor state endpoint endpoint).mpr (.inl rfl)
    obtain ⟨remote, watched⟩ := after.needed broken.1 there
    change (state.connFor endpoint).isRemote endpoint = true at remote
    change (state.connFor endpoint).watchers endpoint ≠ [] at watched
    rw [connFor_isRemote] at remote
    rw [connFor_watchers] at watched
    exact broken.2 (balanced.opened remote watched)
  · intro either
    have dialed : (state.connFor endpoint).Balanced control := by
      cases either with
      | inl same =>
        rw [same]
        exact balanced.dialControl
      | inr there => rwa [connFor_of_contains there]
    exact ⟨dialed.opened, dialed.needed⟩

/-- An operation keeps the agreement and takes nothing from anyone exactly when it meets the
condition. -/
theorem Balanced.step_iff (operation : Operation) :
    (state.step bundles control operation).Balanced control ∧
        (∀ src watcher, operation = .unwatch src watcher →
          state.Spares (state.step bundles control operation)) ↔
      state.Careful bundles control operation := by
  have alone {Other : Prop} (quiet : ∀ src watcher, operation ≠ .unwatch src watcher)
      (same : (state.step bundles control operation).Balanced control ↔ Other) :
      (state.step bundles control operation).Balanced control ∧
        (∀ src watcher, operation = .unwatch src watcher →
          state.Spares (state.step bundles control operation)) ↔ Other := by
    rw [and_iff_left, same]
    intro src watcher impossible
    exact absurd impossible (quiet src watcher)
  cases operation with
  | register init own =>
    apply alone _ (balanced.register_iff init own)
    intro src watcher impossible
    cases impossible
  | updateMeta id patch =>
    apply alone
    · intro src watcher impossible
      cases impossible
    · apply iff_of_true _ trivial
      exact balanced.congr (isRemote_updateMeta state id patch) rfl (fun _ there => there)
        fun _ _ there => there
  | remove id =>
    apply alone _ (balanced.remove_iff id)
    intro src watcher impossible
    cases impossible
  | load records version =>
    apply alone _ (balanced.load_iff records version)
    intro src watcher impossible
    cases impossible
  | watch src watcher =>
    apply alone _ (iff_of_true (balanced.watch src watcher) trivial)
    intro name other impossible
    cases impossible
  | unwatch src watcher =>
    rw [← balanced.unwatch_iff src watcher]
    constructor
    · intro sound
      exact ⟨sound.1, sound.2 src watcher rfl⟩
    · intro sound
      exact ⟨sound.1, fun _ _ _ => sound.2⟩
  | forward target =>
    apply alone _ (iff_of_true (balanced.forward target) trivial)
    intro src watcher impossible
    cases impossible
  | settle call | release listener =>
    apply alone _ (iff_of_true ⟨balanced.opened, balanced.needed⟩ trivial)
    intro src watcher impossible
    cases impossible
  | onLifecycle endpoint =>
    apply alone _ (balanced.onLifecycle_iff _)
    intro src watcher impossible
    cases impossible

end Operations

/-! ### Whole runs -/

theorem Balanced.sound_iff (operations : List Operation) : ∀ {state : Federation},
    state.Balanced control →
      (state.Sound bundles control operations ↔ state.CarefulRun bundles control operations) := by
  induction operations with
  | nil =>
    intro state balanced
    exact iff_of_true balanced trivial
  | cons operation operations hypothesis =>
    intro state balanced
    constructor
    · intro sound
      obtain ⟨_, spares, rest⟩ := sound
      have after : (state.step bundles control operation).Balanced control := by
        cases operations with
        | nil => exact rest
        | cons => exact rest.1
      exact ⟨balanced.step_iff operation |>.mp ⟨after, spares⟩, (hypothesis after).mp rest⟩
    · intro careful
      obtain ⟨after, spares⟩ := (balanced.step_iff operation).mpr careful.1
      exact ⟨balanced, spares, (hypothesis after).mpr careful.2⟩

theorem start_balanced (control : String) (kernel : Kernel) (handled : String → Bool) :
    (start kernel handled).Balanced control := by
  constructor
  · intro src _ watched
    exact absurd rfl watched
  · intro src _ there
    cases there

/-- From any tree, with nothing watched and nothing dialed, a run keeps the watcher sets and
the connections in agreement, and no `unwatch` of it takes anything from anyone else, exactly
when every operation of it meets the condition. -/
theorem watches_are_balanced_iff (bundles : List String) (control : String) (kernel : Kernel)
    (handled : String → Bool) (operations : List Operation) :
    (start kernel handled).Sound bundles control operations ↔
      (start kernel handled).CarefulRun bundles control operations :=
  (start_balanced control kernel handled).sound_iff operations

/-- A call waits on the connection of a watched source, and the only watcher leaves. -/
theorem last_watcher_takes_the_call : ¬ ∀ bundles control kernel handled operations,
    (start kernel handled).Sound bundles control operations := by
  intro sound
  have steps := sound [] "kernel_state" { agents := .empty, rootId := none } (fun _ => false)
    [.watch "pty" "view", .forward "pty", .unwatch "pty" "view"]
  have kept := (steps.2.2.2.2.2.1 "pty" "view" rfl).1 0 0 rfl
  cases kept

end Federation

end Fantastic.Ts
