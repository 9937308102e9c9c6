import Mathlib.Algebra.Order.BigOperators.Group.List
import Mathlib.Algebra.Order.Ring.Nat
import Mathlib.Data.List.DropRight
import Mathlib.Data.List.Infix

/-!
# Cutting a list of turns down to a limit

Every turn has a cost, and some turns are orphans when they stand first: a reply whose
request was cut away. The cuts below keep the newest turns, never lose the last one, and
leave no orphan at the front. The costs, the orphans and the turns are parameters.
-/

namespace Fantastic.TurnWindow

variable {Turn : Type*}

def weight (cost : Turn → Nat) (turns : List Turn) : Nat :=
  (turns.map cost).sum

def dropOrphans (orphan : Turn → Bool) (turns : List Turn) : List Turn :=
  turns.dropWhile orphan

/-- Walks back from the newest turn and stops at the first one that does not fit. -/
def gather (cost : Turn → Nat) (limit : Int) (used : Nat) (kept : List Turn) :
    List Turn → List Turn
  | [] => kept
  | turn :: older =>
    if limit < used + cost turn then kept
    else gather cost limit (used + cost turn) (turn :: kept) older

/-- The longest suffix within the limit, with the last turn in any case. -/
def fitTail (cost : Turn → Nat) (orphan : Turn → Bool) (turns : List Turn) (limit : Int) :
    List Turn :=
  match turns.getLast? with
  | none => []
  | some last =>
    dropOrphans orphan (gather cost limit (cost last) [last] turns.dropLast.reverse)

/-- A boundary moved back for as long as an orphan stands behind it. -/
def snapBack (orphan : Turn → Bool) (turns : List Turn) : Nat → Nat
  | 0 => 0
  | start + 1 =>
    if (turns[start + 1]?).any orphan then snapBack orphan turns start else start + 1

def recentSplit (orphan : Turn → Bool) (turns : List Turn) (recent : Nat) :
    List Turn × List Turn :=
  let start := snapBack orphan turns (turns.length - recent)
  (turns.take start, turns.drop start)

/-- Drops the oldest turn, with the replies it orphans, until `fine` holds or one turn is
left. Every round drops a turn, so as many rounds as there are turns are enough. -/
def trim (orphan : Turn → Bool) (fine : List Turn → Bool) : Nat → List Turn → List Turn
  | 0, turns => turns
  | fuel + 1, turns =>
    if 1 < turns.length ∧ fine turns = false then
      trim orphan fine fuel (dropOrphans orphan turns.tail)
    else turns

/-! ### Costs -/

section Weight

variable (cost : Turn → Nat)

@[simp] theorem weight_nil : weight cost [] = 0 := rfl

@[simp] theorem weight_cons (turn : Turn) (turns : List Turn) :
    weight cost (turn :: turns) = cost turn + weight cost turns := by
  simp [weight]

theorem weight_append (front back : List Turn) :
    weight cost (front ++ back) = weight cost front + weight cost back := by
  simp [weight]

theorem cost_le_weight {turns : List Turn} {last : Turn} (ends : turns.getLast? = some last) :
    cost last ≤ weight cost turns := by
  have member : cost last ∈ turns.map cost :=
    List.mem_map_of_mem (List.mem_of_getLast? ends)
  exact List.single_le_sum (by simp) _ member

end Weight

/-! ### The last turn stays -/

section Last

variable {orphan : Turn → Bool} {last : Turn}

theorem dropOrphans_getLast {turns : List Turn} (ends : turns.getLast? = some last)
    (owned : orphan last = false) : (dropOrphans orphan turns).getLast? = some last := by
  induction turns with
  | nil => simp at ends
  | cons turn rest ih =>
    unfold dropOrphans at ih ⊢
    rw [List.dropWhile_cons]
    split
    · rename_i drops
      cases rest with
      | nil =>
        have same : turn = last := by simpa using ends
        rw [same, owned] at drops
        contradiction
      | cons next others =>
        apply ih
        simpa [List.getLast?_cons_cons] using ends
    · exact ends

theorem gather_getLast (cost : Turn → Nat) (limit : Int) (older : List Turn) :
    ∀ (used : Nat) {kept : List Turn}, kept.getLast? = some last →
      (gather cost limit used kept older).getLast? = some last := by
  induction older with
  | nil => exact fun _ _ ends => ends
  | cons turn older ih =>
    intro used kept ends
    unfold gather
    split
    · exact ends
    · apply ih
      rw [List.getLast?_cons, ends]
      rfl

theorem fitTail_getLast (cost : Turn → Nat) {turns : List Turn} (limit : Int)
    (ends : turns.getLast? = some last) (owned : orphan last = false) :
    (fitTail cost orphan turns limit).getLast? = some last := by
  unfold fitTail
  rw [ends]
  apply dropOrphans_getLast _ owned
  exact gather_getLast cost limit _ _ rfl

theorem snapBack_le (orphan : Turn → Bool) (turns : List Turn) (start : Nat) :
    snapBack orphan turns start ≤ start := by
  induction start with
  | zero => exact Nat.le_refl 0
  | succ start ih =>
    unfold snapBack
    split
    · omega
    · exact Nat.le_refl _

theorem recentSplit_getLast {turns : List Turn} {recent : Nat} (positive : 0 < recent)
    (ends : turns.getLast? = some last) :
    (recentSplit orphan turns recent).2.getLast? = some last := by
  have back := snapBack_le orphan turns (turns.length - recent)
  have nonempty : 0 < turns.length := List.length_pos_of_mem (List.mem_of_getLast? ends)
  unfold recentSplit
  rw [List.getLast?_drop, if_neg (by omega), ends]

theorem trim_getLast (fine : List Turn → Bool) (owned : orphan last = false) (fuel : Nat) :
    ∀ {turns : List Turn}, turns.getLast? = some last →
      (trim orphan fine fuel turns).getLast? = some last := by
  induction fuel with
  | zero => exact fun ends => ends
  | succ fuel ih =>
    intro turns ends
    unfold trim
    split
    · rename_i long
      apply ih
      apply dropOrphans_getLast _ owned
      cases turns with
      | nil => simp at ends
      | cons turn rest =>
        cases rest with
        | nil => simp at long
        | cons next others => simpa [List.getLast?_cons_cons] using ends
    · exact ends

end Last

/-! ### Turns with their replies -/

/-- A turn and the replies that directly follow it. -/
structure Exchange (Turn : Type*) where
  head : Turn
  replies : List Turn

def flatten (groups : List (Exchange Turn)) : List Turn :=
  groups.flatMap fun group => group.head :: group.replies

/-- The replies are orphans without their turn, and a turn has some if it calls for them. -/
def Owned (orphan calls : Turn → Bool) (group : Exchange Turn) : Prop :=
  orphan group.head = false ∧ (∀ reply ∈ group.replies, orphan reply = true) ∧
    (group.replies ≠ [] ↔ calls group.head = true)

section Groups

variable {orphan calls : Turn → Bool} {groups : List (Exchange Turn)}

theorem flatten_cons (group : Exchange Turn) (groups : List (Exchange Turn)) :
    flatten (group :: groups) = group.head :: (group.replies ++ flatten groups) := by
  simp [flatten]

theorem flatten_suffix {rest : List (Exchange Turn)} (suffix : rest <:+ groups) :
    flatten rest <:+ flatten groups := by
  obtain ⟨front, rfl⟩ := suffix
  rw [flatten, flatten, List.flatMap_append]
  exact List.suffix_append _ _

/-- A cut anywhere comes to a cut between groups. -/
theorem dropOrphans_groups (owned : ∀ group ∈ groups, Owned orphan calls group)
    {turns : List Turn} (suffix : turns <:+ flatten groups) :
    ∃ rest, rest <:+ groups ∧ dropOrphans orphan turns = flatten rest := by
  induction groups generalizing turns with
  | nil =>
    rw [List.suffix_nil.mp suffix]
    exact ⟨[], List.suffix_refl _, rfl⟩
  | cons group groups ih =>
    obtain ⟨head, replies, _⟩ := owned group List.mem_cons_self
    have later := fun other member => owned other (List.mem_cons_of_mem _ member)
    rw [flatten_cons, List.suffix_cons_iff] at suffix
    rcases suffix with rfl | inside
    · refine ⟨group :: groups, List.suffix_refl _, ?_⟩
      rw [flatten_cons, dropOrphans, List.dropWhile_cons_of_neg (by simp [head])]
    · rcases List.suffix_or_suffix_of_suffix inside (List.suffix_append _ _) with short | long
      · obtain ⟨rest, ends, same⟩ := ih later short
        exact ⟨rest, ends.trans (List.suffix_cons _ _), same⟩
      · obtain ⟨front, rfl⟩ := long
        have among : front <:+ group.replies := List.suffix_append_self_iff.mp inside
        obtain ⟨rest, ends, same⟩ := ih later (List.suffix_refl _)
        refine ⟨rest, ends.trans (List.suffix_cons _ _), ?_⟩
        rw [dropOrphans, List.dropWhile_append_of_pos
          fun turn member => replies turn (among.subset member)]
        exact same

theorem gather_suffix (cost : Turn → Nat) (limit : Int) (older : List Turn) :
    ∀ (used : Nat) (kept : List Turn),
      gather cost limit used kept older <:+ older.reverse ++ kept := by
  induction older with
  | nil => exact fun _ _ => List.suffix_refl _
  | cons turn older ih =>
    intro used kept
    unfold gather
    split
    · exact List.suffix_append _ _
    · rw [List.reverse_cons, List.append_assoc]
      exact ih _ _

/-- The turns that fit, before orphans are dropped, end the list. -/
theorem fitTail_cut (cost : Turn → Nat) (turns : List Turn) (limit : Int) :
    ∃ kept, kept <:+ turns ∧ fitTail cost orphan turns limit = dropOrphans orphan kept := by
  unfold fitTail
  split
  case h_1 => exact ⟨[], List.nil_suffix, rfl⟩
  case h_2 last ends =>
    refine ⟨_, ?_, rfl⟩
    have whole := gather_suffix cost limit turns.dropLast.reverse (cost last) [last]
    rw [List.reverse_reverse] at whole
    obtain ⟨front, shape⟩ := List.getLast?_eq_some_iff.mp ends
    rw [shape, List.dropLast_concat] at whole ⊢
    exact whole

theorem fitTail_suffix (cost : Turn → Nat) (turns : List Turn) (limit : Int) :
    fitTail cost orphan turns limit <:+ turns := by
  obtain ⟨kept, suffix, same⟩ := @fitTail_cut _ orphan cost turns limit
  rw [same]
  exact (List.dropWhile_suffix _).trans suffix

theorem fitTail_groups (owned : ∀ group ∈ groups, Owned orphan calls group)
    (cost : Turn → Nat) {turns : List Turn} (suffix : turns <:+ flatten groups) (limit : Int) :
    ∃ rest, rest <:+ groups ∧ fitTail cost orphan turns limit = flatten rest := by
  obtain ⟨kept, ends, same⟩ := @fitTail_cut _ orphan cost turns limit
  rw [same]
  exact dropOrphans_groups owned (ends.trans suffix)

theorem trim_groups (owned : ∀ group ∈ groups, Owned orphan calls group)
    (fine : List Turn → Bool) (fuel : Nat) :
    ∀ {rest : List (Exchange Turn)}, rest <:+ groups →
      ∃ kept, kept <:+ groups ∧ trim orphan fine fuel (flatten rest) = flatten kept := by
  induction fuel with
  | zero => exact fun suffix => ⟨_, suffix, rfl⟩
  | succ fuel ih =>
    intro rest suffix
    unfold trim
    split
    · have cut := (List.tail_suffix (flatten rest)).trans (flatten_suffix suffix)
      obtain ⟨next, ends, same⟩ := dropOrphans_groups owned cut
      rw [same]
      exact ih ends
    · exact ⟨rest, suffix, rfl⟩

end Groups

/-! ### The longest tail that fits -/

section Longest

variable {cost : Turn → Nat} {orphan : Turn → Bool} {limit : Int} {turns kept : List Turn}

/-- The longest of the ends that stay within the limit, or the last turn where none does. -/
structure LongestFit (cost : Turn → Nat) (limit : Int) (turns kept : List Turn) : Prop where
  ends : kept <:+ turns
  nonempty : kept ≠ []
  fits : weight cost kept ≤ limit ∨ kept.length = 1
  longest : ∀ longer, longer <:+ turns → longer ≠ [] → weight cost longer ≤ limit →
    longer.length ≤ kept.length

theorem weight_suffix (cost : Turn → Nat) {front back : List Turn} (suffix : front <:+ back) :
    weight cost front ≤ weight cost back := by
  obtain ⟨cut, rfl⟩ := suffix
  rw [weight_append]
  omega

theorem gather_longest (older : List Turn) :
    ∀ kept : List Turn, kept ≠ [] → weight cost kept ≤ limit ∨ kept.length = 1 →
      LongestFit cost limit (older.reverse ++ kept)
        (gather cost limit (weight cost kept) kept older) := by
  induction older with
  | nil =>
    intro kept nonempty fits
    exact ⟨List.suffix_refl _, nonempty, fits, fun longer suffix _ _ => suffix.length_le⟩
  | cons turn older ih =>
    intro kept nonempty fits
    rw [gather, List.reverse_cons, List.append_assoc, List.singleton_append]
    split
    case isTrue full =>
      refine ⟨(List.suffix_cons turn kept).trans (List.suffix_append _ _), nonempty, fits, ?_⟩
      intro longer suffix _ within
      -- a longer end holds the turn that no longer fitted
      by_contra more
      have holds := weight_suffix cost (List.suffix_of_suffix_length_le
        (List.suffix_append older.reverse (turn :: kept)) suffix
        (by rw [List.length_cons]; omega))
      rw [weight_cons] at holds
      omega
    case isFalse room =>
      have next := ih (turn :: kept) (List.cons_ne_nil turn kept)
        (.inl (by rw [weight_cons]; omega))
      rw [weight_cons, Nat.add_comm] at next
      exact next

theorem fitTail_longest (cost : Turn → Nat) (orphan : Turn → Bool) (limit : Int)
    (nonempty : turns ≠ []) : ∃ kept, LongestFit cost limit turns kept ∧
      fitTail cost orphan turns limit = dropOrphans orphan kept := by
  have last := List.getLast?_eq_some_getLast nonempty
  have whole := @gather_longest _ cost limit turns.dropLast.reverse [turns.getLast nonempty]
    (List.cons_ne_nil _ _) (.inr rfl)
  rw [List.reverse_reverse, List.dropLast_append_getLast nonempty] at whole
  refine ⟨_, whole, ?_⟩
  rw [fitTail, last]
  rfl

/-- A higher limit lets a longer end in, and no end comes before the longest. -/
theorem LongestFit.length_le {higher : Int} {more : List Turn} (raised : limit ≤ higher)
    (low : LongestFit cost limit turns kept) (high : LongestFit cost higher turns more) :
    kept.length ≤ more.length := by
  obtain within | single := low.fits
  · exact high.longest kept low.ends low.nonempty (within.trans raised)
  · have some' := List.length_pos_of_ne_nil high.nonempty
    omega

theorem LongestFit.unique {other : List Turn} (first : LongestFit cost limit turns kept)
    (second : LongestFit cost limit turns other) : kept = other := by
  have suffix := List.suffix_of_suffix_length_le first.ends second.ends
    (first.length_le le_rfl second)
  exact suffix.eq_of_length_le (second.length_le le_rfl first)

theorem dropOrphans_suffix {front back : List Turn} (suffix : front <:+ back) :
    (dropOrphans orphan front).length ≤ (dropOrphans orphan back).length := by
  obtain ⟨cut, rfl⟩ := suffix
  unfold dropOrphans
  rw [List.dropWhile_append]
  split
  · exact le_rfl
  · have shorter := (List.dropWhile_suffix orphan (l := front)).length_le
    rw [List.length_append]
    omega

/-- A cut that is the longest fit without its orphans at the front, and what follows for any
two limits. -/
structure TailFit (cost : Turn → Nat) (orphan : Turn → Bool)
    (fit : List Turn → Int → List Turn) : Prop where
  empty : ∀ limit, fit [] limit = []
  longest : ∀ turns limit, turns ≠ [] → ∃ kept, LongestFit cost limit turns kept ∧
    fit turns limit = dropOrphans orphan kept
  monotone : ∀ turns limit higher, limit ≤ higher →
    (fit turns limit).length ≤ (fit turns higher).length
  idempotent : ∀ turns limit, fit (fit turns limit) limit = fit turns limit
  bounded : ∀ turns last limit, turns.getLast? = some last →
    weight cost (fit turns limit) ≤ max limit (cost last)

theorem fitTail_monotone (cost : Turn → Nat) (orphan : Turn → Bool) (turns : List Turn)
    {higher : Int} (raised : limit ≤ higher) :
    (fitTail cost orphan turns limit).length ≤ (fitTail cost orphan turns higher).length := by
  by_cases empty : turns = []
  · rw [empty]
    rfl
  · obtain ⟨kept, low, same⟩ := fitTail_longest cost orphan limit empty
    obtain ⟨more, high, next⟩ := fitTail_longest cost orphan higher empty
    rw [same, next]
    exact dropOrphans_suffix
      (List.suffix_of_suffix_length_le low.ends high.ends (low.length_le raised high))

theorem fitTail_idempotent (cost : Turn → Nat) (orphan : Turn → Bool) (turns : List Turn)
    (limit : Int) : fitTail cost orphan (fitTail cost orphan turns limit) limit =
      fitTail cost orphan turns limit := by
  by_cases empty : turns = []
  · rw [empty]
    rfl
  · obtain ⟨kept, fit, same⟩ := fitTail_longest cost orphan limit empty
    rw [same]
    by_cases gone : dropOrphans orphan kept = []
    · rw [gone]
      rfl
    · obtain ⟨again, refit, next⟩ := fitTail_longest cost orphan limit gone
      have cut : dropOrphans orphan kept <:+ kept := List.dropWhile_suffix orphan
      have whole : LongestFit cost limit (dropOrphans orphan kept) (dropOrphans orphan kept) := by
        refine ⟨List.suffix_refl _, gone, ?_, fun longer suffix _ _ => suffix.length_le⟩
        obtain within | single := fit.fits
        · have lighter := weight_suffix cost cut
          exact .inl (by omega)
        · have shorter := cut.length_le
          have some' := List.length_pos_of_ne_nil gone
          exact .inr (by omega)
      rw [next, refit.unique whole]
      exact List.dropWhile_idempotent orphan kept

theorem fitTail_bounded (cost : Turn → Nat) (orphan : Turn → Bool) {last : Turn} (limit : Int)
    (ends : turns.getLast? = some last) :
    weight cost (fitTail cost orphan turns limit) ≤ max limit (cost last) := by
  have nonempty : turns ≠ [] := by
    intro empty
    rw [empty] at ends
    contradiction
  obtain ⟨kept, fit, same⟩ := fitTail_longest cost orphan limit nonempty
  have lighter := weight_suffix cost
    (show dropOrphans orphan kept <:+ kept from List.dropWhile_suffix orphan)
  rw [same]
  obtain within | single := fit.fits
  · omega
  · obtain ⟨turn, rfl⟩ := List.length_eq_one_iff.mp single
    obtain ⟨front, rfl⟩ := fit.ends
    rw [List.getLast?_concat] at ends
    cases ends
    rw [weight_cons, weight_nil] at lighter
    omega

theorem fitTail_tailFit (cost : Turn → Nat) (orphan : Turn → Bool) :
    TailFit cost orphan (fitTail cost orphan) where
  empty := fun _ => rfl
  longest := fun _ limit nonempty => fitTail_longest cost orphan limit nonempty
  monotone := fun turns _ _ raised => fitTail_monotone cost orphan turns raised
  idempotent := fitTail_idempotent cost orphan
  bounded := fun _ _ limit ends => fitTail_bounded cost orphan limit ends

end Longest

/-! ### Where trimming stops -/

theorem trim_stops (orphan : Turn → Bool) (fine : List Turn → Bool) (fuel : Nat) :
    ∀ {turns : List Turn}, turns.length ≤ fuel + 1 →
      fine (trim orphan fine fuel turns) = true ∨ (trim orphan fine fuel turns).length ≤ 1 := by
  induction fuel with
  | zero => exact fun small => Or.inr small
  | succ fuel ih =>
    intro turns small
    unfold trim
    split
    · apply ih
      have shorter := (List.dropWhile_sublist orphan (l := turns.tail)).length_le
      unfold dropOrphans
      rw [List.length_tail] at shorter
      omega
    · rename_i stopped
      cases fits : fine turns with
      | true => exact Or.inl rfl
      | false =>
        right
        by_contra long
        exact stopped ⟨by omega, fits⟩

/-- Trimming reaches the limit exactly when the last turn alone stays within it. -/
theorem trim_fits_iff {orphan : Turn → Bool} {cost : Turn → Nat} {last : Turn} (base : Nat)
    (limit : Int) {turns : List Turn} (ends : turns.getLast? = some last)
    (owned : orphan last = false) :
    let fine := fun kept : List Turn => decide (((base + weight cost kept : Nat) : Int) ≤ limit)
    ((base + weight cost (trim orphan fine turns.length turns) : Nat) : Int) ≤ limit ↔
      ((base + cost last : Nat) : Int) ≤ limit := by
  intro fine
  have kept := trim_getLast fine owned turns.length ends
  have least := cost_le_weight cost kept
  constructor
  · intro fits
    omega
  · intro room
    obtain fits | single := trim_stops orphan fine turns.length (Nat.le_succ turns.length)
    · exact of_decide_eq_true fits
    · obtain ⟨front, shape⟩ := List.getLast?_eq_some_iff.mp kept
      have empty : front = [] := by
        rw [shape, List.length_append, List.length_singleton] at single
        exact List.eq_nil_of_length_eq_zero (by omega)
      rw [shape, empty]
      simpa using room

end Fantastic.TurnWindow
