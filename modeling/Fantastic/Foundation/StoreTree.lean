import Fantastic.Foundation.PurePath
import Mathlib.Logic.Relation

/-!
# Trees laid out in directories

A tree of nodes where every node has a directory, its place, and keeps its children in one named
directory of it. `Contained` is what such a layout is for: places tell nodes apart, and what happens
in or below the place of a node concerns that node and its descendants. It follows when every node
lies under its own name in the container of the node above it, names being unique.
-/

namespace Fantastic

/-! ### Folding -/

/-- One part of a relative path; `..` at the start leaves it. -/
def PurePath.foldPart (place : List String) (part : String) : Option (List String) :=
  if part = ".." then if place = [] then none else some place.dropLast
  else some (place ++ [part])

/-- Where a path leads inside a directory, `..` folded; nothing for a path that leaves it. -/
def PurePath.folded (path : PurePath) : Option (List String) :=
  if path.root = "" then path.parts.foldlM foldPart [] else none

theorem PurePath.folded_plain (names : List Segment) :
    folded { root := "", parts := names.map Subtype.val } = some (names.map Subtype.val) := by
  have from_ : ∀ place : List String, (names.map Subtype.val).foldlM foldPart place =
      some (place ++ names.map Subtype.val) := by
    induction names with
    | nil =>
      intro place
      simp
    | cons name names ih =>
      intro place
      have notUp : name.val ≠ ".." := name.property.2.2.1
      simp only [List.map_cons, List.foldlM_cons, foldPart, if_neg notUp, Option.bind_eq_bind,
        Option.bind_some, ih]
      simp
  rw [folded, if_pos rfl, from_, List.nil_append]

/-! ### Layouts -/

/-- Where directories come in steps of two names, one above another is above its parent. -/
theorem prefix_of_even {Name : Type*} {place high : List Name} {first second : Name}
    (even : place.length % 2 = 0) (highEven : high.length % 2 = 0)
    (within : place <+: high ++ [first, second]) (apart : place ≠ high ++ [first, second]) :
    place <+: high := by
  have bound := within.length_le
  have shorter : place.length ≠ (high ++ [first, second]).length := by
    intro equal
    exact apart (within.eq_of_length equal)
  simp only [List.length_append, List.length_cons, List.length_nil] at bound shorter
  exact List.prefix_of_prefix_length_le within (List.prefix_append high _) (by omega)

/-- A place is nothing for a node outside of the store. -/
structure Layout (Node Name : Type*) where
  live : Node → Prop
  root : Node
  above : Node → Option Node
  place : Node → Option (List Name)

namespace Layout

variable {Node Name : Type*} (layout : Layout Node Name)

def Descends : Node → Node → Prop :=
  Relation.ReflTransGen fun node upper => layout.above node = some upper

/-- Every node has a place of its own, strictly below the container of the node above it, and the
root has the top. Only descendants have their main file in the directory of a node, and only the
node itself has its main file among those written there. -/
structure Contained (container mainFile : Name) (ownFiles : List Name) : Prop where
  top : layout.place layout.root = some []
  inside : ∀ node, layout.live node → ∃ place, layout.place node = some place
  distinct : ∀ first second, layout.live first → layout.live second →
    layout.place first = layout.place second → first = second
  below : ∀ node, layout.live node → node ≠ layout.root → ∃ upper high low,
    layout.above node = some upper ∧ layout.live upper ∧ layout.place upper = some high ∧
      layout.place node = some (high ++ container :: low) ∧ low ≠ []
  removes : ∀ first second place other, layout.live first → layout.live second →
    layout.place first = some place → layout.place second = some other →
      place <+: other ++ [mainFile] → layout.Descends second first
  writes : ∀ first second place other, layout.live first → layout.live second →
    layout.place first = some place → layout.place second = some other →
      ∀ file ∈ ownFiles, place ++ [file] = other ++ [mainFile] → first = second

/-- Every node lies under its name in the container of the node above it. -/
structure Named (container : Name) (name : Node → Name) : Prop where
  top : layout.place layout.root = some []
  step : ∀ node, layout.live node → node ≠ layout.root → ∃ upper place,
    layout.above node = some upper ∧ layout.live upper ∧ layout.place upper = some place ∧
      layout.place node = some (place ++ [container, name node])
  unique : ∀ first second, layout.live first → layout.live second → first ≠ layout.root →
    second ≠ layout.root → name first = name second → first = second

variable {layout} {container : Name} {name : Node → Name}

theorem Named.even (named : layout.Named container name) {place : List Name} :
    ∀ {node}, layout.live node → layout.place node = some place → place.length % 2 = 0 := by
  induction length : place.length using Nat.strongRecOn generalizing place with
  | _ size ih =>
    intro node live found
    by_cases isRoot : node = layout.root
    · rw [isRoot, named.top] at found
      cases found
      rw [← length]
      rfl
    · obtain ⟨upper, high, _, upperLive, upperPlace, nodePlace⟩ := named.step node live isRoot
      rw [nodePlace] at found
      cases found
      rw [List.length_append, List.length_cons, List.length_singleton] at length
      have shorter := ih high.length (by omega) rfl upperLive upperPlace
      omega

theorem Named.eq_root (named : layout.Named container name) {node : Node} (live : layout.live node)
    (top : layout.place node = some []) : node = layout.root := by
  by_contra inner
  obtain ⟨_, high, _, _, _, nodePlace⟩ := named.step node live inner
  rw [nodePlace, Option.some.injEq] at top
  exact absurd top (by simp)

theorem Named.distinct (named : layout.Named container name) {first second : Node}
    (firstLive : layout.live first) (secondLive : layout.live second)
    (same : layout.place first = layout.place second) : first = second := by
  by_cases isRoot : first = layout.root
  · subst isRoot
    rw [named.top] at same
    exact (named.eq_root secondLive same.symm).symm
  · by_cases otherRoot : second = layout.root
    · subst otherRoot
      rw [named.top] at same
      exact named.eq_root firstLive same
    · obtain ⟨_, high, _, _, _, firstPlace⟩ := named.step first firstLive isRoot
      obtain ⟨_, other, _, _, _, secondPlace⟩ := named.step second secondLive otherRoot
      rw [firstPlace, secondPlace, Option.some.injEq] at same
      obtain ⟨_, names⟩ := List.append_inj' same rfl
      apply named.unique first second firstLive secondLive isRoot otherRoot
      simpa using names

/-- A place above another one belongs to an ancestor. -/
theorem Named.descends (named : layout.Named container name) {first : Node}
    {place other : List Name} (firstLive : layout.live first) (firstPlace : layout.place first = some place) :
    ∀ {second}, layout.live second → layout.place second = some other → place <+: other →
      layout.Descends second first := by
  induction length : other.length using Nat.strongRecOn generalizing other with
  | _ size ih =>
    intro second secondLive secondPlace within
    by_cases same : place = other
    · subst same
      rw [named.distinct firstLive secondLive (firstPlace.trans secondPlace.symm)]
      exact .refl
    · by_cases isRoot : second = layout.root
      · rw [isRoot, named.top] at secondPlace
        cases secondPlace
        exact absurd (List.prefix_nil.mp within) same
      · obtain ⟨upper, high, parent, upperLive, upperPlace, nodePlace⟩ :=
          named.step second secondLive isRoot
        rw [nodePlace] at secondPlace
        cases secondPlace
        have higher : place <+: high := prefix_of_even (named.even firstLive firstPlace)
          (named.even upperLive upperPlace) within same
        rw [List.length_append, List.length_cons, List.length_singleton] at length
        exact .head parent (ih high.length (by omega) rfl upperLive upperPlace higher)

/-- Names keep the nodes of a layout apart. -/
theorem Named.contained (named : layout.Named container name) (mainFile : Name)
    (ownFiles : List Name) : layout.Contained container mainFile ownFiles := by
  constructor
  · exact named.top
  · intro node live
    by_cases isRoot : node = layout.root
    · exact ⟨[], isRoot ▸ named.top⟩
    · obtain ⟨_, _, _, _, _, nodePlace⟩ := named.step node live isRoot
      exact ⟨_, nodePlace⟩
  · intro first second firstLive secondLive same
    exact named.distinct firstLive secondLive same
  · intro node live inner
    obtain ⟨upper, high, parent, upperLive, upperPlace, nodePlace⟩ := named.step node live inner
    exact ⟨upper, high, [name node], parent, upperLive, upperPlace, nodePlace, by simp⟩
  · intro first second place other firstLive secondLive firstPlace secondPlace within
    rw [List.prefix_concat_iff] at within
    cases within with
    | inl whole =>
      have placeEven := named.even firstLive firstPlace
      have otherEven := named.even secondLive secondPlace
      have odd := congrArg List.length whole
      rw [List.length_append, List.length_singleton] at odd
      omega
    | inr higher => exact named.descends firstLive firstPlace secondLive secondPlace higher
  · intro first second place other firstLive secondLive firstPlace secondPlace file _ same
    obtain ⟨samePlace, _⟩ := List.append_inj' same rfl
    apply named.distinct firstLive secondLive
    rw [firstPlace, secondPlace, samePlace]

end Layout

end Fantastic
