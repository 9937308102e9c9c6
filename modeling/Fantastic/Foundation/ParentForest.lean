import Mathlib.Data.List.Nodup
import Mathlib.Logic.Relation

/-!
# Flat lists of nodes that name their parents

A tree stored flat is a list of nodes, each with its own key and the key of its
parent. `preorder` is the depth-first walk that rebuilds such a tree from a root.
When some rank falls from every child to its parent, the walk lists every node
below the root exactly once, and `nodes.length` is fuel enough.
-/

namespace Fantastic.ParentForest

variable {Node Key : Type*} [DecidableEq Key]
variable (nodes : List Node) (key : Node → Key) (parent : Node → Option Key)

def childrenOf (above : Key) : List Node :=
  nodes.filter fun node => decide (parent node = some above)

def preorder : Nat → Node → List Node
  | 0, _ => []
  | fuel + 1, node =>
    node :: (childrenOf nodes parent (key node)).flatMap (preorder fuel)

/-- One step up: both ends are listed and the lower one names the upper one. -/
def Link (child above : Node) : Prop :=
  child ∈ nodes ∧ above ∈ nodes ∧ parent child = some (key above)

abbrev Below (low high : Node) : Prop :=
  Relation.ReflTransGen (Link nodes key parent) low high

def Ranked (rank : Node → Nat) : Prop :=
  ∀ child above, Link nodes key parent child above → rank above < rank child

/-- Reached from the top through nodes that are kept. -/
inductive Reached (keep : Node → Prop) : Node → Prop where
  | top {node : Node} (listed : node ∈ nodes) (bare : parent node = none) (kept : keep node) :
      Reached keep node
  | under {node above : Node} (link : Link nodes key parent node above)
      (upper : Reached keep above) (kept : keep node) : Reached keep node

variable {nodes key parent}

omit [DecidableEq Key] in
theorem Reached.listed {keep : Node → Prop} {node : Node}
    (reached : Reached nodes key parent keep node) : node ∈ nodes := by
  cases reached with
  | top listed => exact listed
  | under link => exact link.1

omit [DecidableEq Key] in
theorem Reached.kept {keep : Node → Prop} {node : Node}
    (reached : Reached nodes key parent keep node) : keep node := by
  cases reached with
  | top _ _ kept => exact kept
  | under _ _ kept => exact kept

omit [DecidableEq Key] in
/-- A weaker rule reaches at least as far. -/
theorem Reached.mono {keep other : Node → Prop} (weaker : ∀ node, keep node → other node)
    {node : Node} (reached : Reached nodes key parent keep node) :
    Reached nodes key parent other node := by
  induction reached with
  | top listed bare kept => exact .top listed bare (weaker _ kept)
  | under link _ kept ih => exact .under link ih (weaker _ kept)

omit [DecidableEq Key] in
theorem link_right_unique (nodup : (nodes.map key).Nodup) :
    Relator.RightUnique (Link nodes key parent) := by
  rintro child first second ⟨_, firstMember, firstLink⟩ ⟨_, secondMember, secondLink⟩
  have sameKey : key first = key second := Option.some.inj (firstLink.symm.trans secondLink)
  exact List.inj_on_of_nodup_map nodup firstMember secondMember sameKey

omit [DecidableEq Key] in
theorem below_rank_le {rank : Node → Nat} (ranked : Ranked nodes key parent rank)
    {low high : Node} (below : Below nodes key parent low high) : rank high ≤ rank low := by
  induction below with
  | refl => exact Nat.le_refl _
  | tail _ link ih => exact Nat.le_trans (Nat.le_of_lt (ranked _ _ link)) ih

theorem preorder_succ (fuel : Nat) (node : Node) : preorder nodes key parent (fuel + 1) node =
    node :: (childrenOf nodes parent (key node)).flatMap (preorder nodes key parent fuel) :=
  rfl

theorem mem_childrenOf_iff {above child : Node} (member : above ∈ nodes) :
    child ∈ childrenOf nodes parent (key above) ↔ Link nodes key parent child above := by
  simp [childrenOf, Link, member]

/-- The walk from a listed node stays below it. -/
theorem preorder_below {fuel : Nat} {start node : Node} (listed : start ∈ nodes)
    (visited : node ∈ preorder nodes key parent fuel start) :
    node ∈ nodes ∧ Below nodes key parent node start := by
  induction fuel generalizing start with
  | zero => exact absurd visited List.not_mem_nil
  | succ fuel ih =>
    simp only [preorder_succ, List.mem_cons, List.mem_flatMap] at visited
    rcases visited with rfl | ⟨child, childMember, deeper⟩
    · exact ⟨listed, .refl⟩
    · have link := (mem_childrenOf_iff listed).mp childMember
      have below := ih link.1 deeper
      exact ⟨below.1, below.2.tail link⟩

/-- With fuel for the remaining ranks, the walk reaches everything below. -/
theorem preorder_complete {rank : Node → Nat} (ranked : Ranked nodes key parent rank)
    {bound : Nat} (bounded : ∀ node ∈ nodes, rank node < bound)
    {fuel : Nat} {start node : Node} (listed : start ∈ nodes)
    (enough : bound ≤ rank start + fuel) (below : Below nodes key parent node start) :
    node ∈ preorder nodes key parent fuel start := by
  induction fuel generalizing start with
  | zero =>
    have inside := bounded start listed
    omega
  | succ fuel ih =>
    rcases Relation.ReflTransGen.cases_tail below with rfl | ⟨child, deeper, link⟩
    · exact List.mem_cons_self
    · have lower := ranked _ _ link
      refine List.mem_cons_of_mem _ (List.mem_flatMap.mpr ⟨child, ?_, ?_⟩)
      · exact (mem_childrenOf_iff listed).mpr link
      · exact ih link.1 (by omega) deeper

omit [DecidableEq Key] in
/-- Subtrees of two different children of one node share nothing. -/
theorem sibling_subtrees_disjoint {rank : Node → Nat} (ranked : Ranked nodes key parent rank)
    (nodup : (nodes.map key).Nodup) {above first second node : Node}
    (firstLink : Link nodes key parent first above)
    (secondLink : Link nodes key parent second above) (different : first ≠ second)
    (underFirst : Below nodes key parent node first) :
    ¬ Below nodes key parent node second := by
  have noDescent : ∀ left right, Link nodes key parent left above →
      Link nodes key parent right above → left ≠ right → ¬ Below nodes key parent left right := by
    intro left right leftLink rightLink distinct descent
    rcases Relation.ReflTransGen.cases_head descent with same | ⟨next, step, rest⟩
    · exact distinct same
    · have sameParent : next = above := link_right_unique nodup step leftLink
      subst sameParent
      have climbs := below_rank_le ranked rest
      have falls := ranked _ _ rightLink
      omega
  intro underSecond
  rcases Relation.ReflTransGen.total_of_right_unique (link_right_unique nodup)
      underFirst underSecond with descent | descent
  · exact noDescent first second firstLink secondLink different descent
  · exact noDescent second first secondLink firstLink different.symm descent

theorem preorder_nodup {rank : Node → Nat} (ranked : Ranked nodes key parent rank)
    (nodup : (nodes.map key).Nodup) (fuel : Nat) {start : Node} (listed : start ∈ nodes) :
    (preorder nodes key parent fuel start).Nodup := by
  induction fuel generalizing start with
  | zero => exact List.nodup_nil
  | succ fuel ih =>
    simp only [preorder_succ, List.nodup_cons]
    constructor
    · intro again
      rcases List.mem_flatMap.mp again with ⟨child, childMember, deeper⟩
      have link := (mem_childrenOf_iff listed).mp childMember
      have climbs := below_rank_le ranked (preorder_below link.1 deeper).2
      have falls := ranked _ _ link
      omega
    · rw [List.nodup_flatMap]
      constructor
      · intro child childMember
        exact ih ((mem_childrenOf_iff listed).mp childMember).1
      · have childrenNodup : (childrenOf nodes parent (key start)).Nodup :=
          nodup.of_map.filter _
        refine List.Pairwise.imp_of_mem ?_ childrenNodup
        intro first second firstMember secondMember different node inFirst inSecond
        have firstLink := (mem_childrenOf_iff listed).mp firstMember
        have secondLink := (mem_childrenOf_iff listed).mp secondMember
        exact sibling_subtrees_disjoint ranked nodup firstLink secondLink different
          (preorder_below firstLink.1 inFirst).2 (preorder_below secondLink.1 inSecond).2

omit [DecidableEq Key] in
/-- In a closed list with one parentless node, every node is below that node. -/
theorem below_root {rank : Node → Nat} (ranked : Ranked nodes key parent rank) {root : Node}
    (onlyRoot : ∀ node ∈ nodes, parent node = none → node = root)
    (closed : ∀ node ∈ nodes, ∀ above, parent node = some above → ∃ upper ∈ nodes, key upper = above)
    {node : Node} (listed : node ∈ nodes) : Below nodes key parent node root := by
  induction height : rank node using Nat.strongRecOn generalizing node with
  | ind height ih =>
    cases named : parent node with
    | none =>
      rw [onlyRoot node listed named]
    | some above =>
      rcases closed node listed above named with ⟨upper, upperListed, rfl⟩
      have link : Link nodes key parent node upper := ⟨listed, upperListed, named⟩
      have falls := ranked _ _ link
      exact .head link (ih (rank upper) (by omega) upperListed rfl)

/-- Counting the nodes of smaller rank is a rank again, and it stays below the
number of nodes, whatever the first rank was. -/
def compressed (nodes : List Node) (rank : Node → Nat) (node : Node) : Nat :=
  (nodes.filter fun other => decide (rank other < rank node)).length

omit [DecidableEq Key] in
theorem compressed_ranked {rank : Node → Nat} (ranked : Ranked nodes key parent rank) :
    Ranked nodes key parent (compressed nodes rank) := by
  intro child above link
  have falls := ranked _ _ link
  have below : nodes.filter (fun other => decide (rank other < rank above)) =
      (nodes.filter fun other => decide (rank other < rank child)).filter
        fun other => decide (rank other < rank above) := by
    rw [List.filter_filter]
    apply List.filter_congr
    intro other _
    by_cases low : rank other < rank above
    · simp [low, Nat.lt_trans low falls]
    · simp [low]
  rw [compressed, compressed, below]
  rw [List.length_filter_lt_length_iff_exists]
  exact ⟨above, by simp [link.2.1, falls], by simp⟩

theorem compressed_lt (rank : Node → Nat) {node : Node} (listed : node ∈ nodes) :
    compressed nodes rank node < nodes.length := by
  rw [compressed, List.length_filter_lt_length_iff_exists]
  exact ⟨node, listed, by simp⟩

/-- The walk from the root of a closed ranked list is a listing of all of it. -/
theorem mem_preorder_root_iff {rank : Node → Nat} (ranked : Ranked nodes key parent rank)
    {root : Node} (rootListed : root ∈ nodes)
    (onlyRoot : ∀ node ∈ nodes, parent node = none → node = root)
    (closed : ∀ node ∈ nodes, ∀ above, parent node = some above → ∃ upper ∈ nodes, key upper = above)
    {node : Node} :
    node ∈ preorder nodes key parent nodes.length root ↔ node ∈ nodes := by
  constructor
  · intro visited
    exact (preorder_below rootListed visited).1
  · intro listed
    exact preorder_complete (compressed_ranked ranked) (fun _ => compressed_lt rank) rootListed
      (Nat.le_add_left _ _) (below_root ranked onlyRoot closed listed)

section Map

variable {Other Name : Type*} {image : Node → Other} {rename : Key → Name}
  {otherKey : Other → Name} {otherParent : Other → Option Name} {keep : Other → Prop}

omit [DecidableEq Key] in
/-- Reaching a node does not depend on how the nodes and the keys are written down. -/
theorem reached_map (injective : Function.Injective rename)
    (keys : ∀ node, otherKey (image node) = rename (key node))
    (parents : ∀ node, otherParent (image node) = (parent node).map rename) {other : Other} :
    Reached (nodes.map image) otherKey otherParent keep other ↔
      ∃ node, image node = other ∧ Reached nodes key parent (fun node => keep (image node)) node := by
  constructor
  · intro reached
    induction reached with
    | top listed bare kept =>
      obtain ⟨node, nodeListed, rfl⟩ := List.mem_map.mp listed
      rw [parents, Option.map_eq_none_iff] at bare
      exact ⟨node, rfl, .top nodeListed bare kept⟩
    | under link _ kept ih =>
      obtain ⟨upper, rfl, upperReached⟩ := ih
      obtain ⟨node, nodeListed, rfl⟩ := List.mem_map.mp link.1
      have named := link.2.2
      rw [parents, keys, Option.map_eq_some_iff] at named
      obtain ⟨above, aboveNamed, same⟩ := named
      rw [injective same] at aboveNamed
      exact ⟨node, rfl, .under ⟨nodeListed, upperReached.listed, aboveNamed⟩ upperReached kept⟩
  · rintro ⟨node, rfl, reached⟩
    induction reached with
    | top listed bare kept =>
      refine .top (List.mem_map_of_mem listed) ?_ kept
      rw [parents, bare, Option.map_none]
    | under link _ kept ih =>
      refine .under ⟨List.mem_map_of_mem link.1, List.mem_map_of_mem link.2.1, ?_⟩ ih kept
      rw [parents, link.2.2, keys, Option.map_some]

end Map

/-! ### Cycles -/

/-- No node is above itself. -/
def Acyclic (nodes : List Node) (key : Node → Key) (parent : Node → Option Key) : Prop :=
  ∀ node, ¬ Relation.TransGen (Link nodes key parent) node node

omit [DecidableEq Key] in
/-- A chain that starts at the top never comes back to where it was. -/
theorem Reached.not_above_itself {keep : Node → Prop} (nodup : (nodes.map key).Nodup) {node : Node}
    (reached : Reached nodes key parent keep node) :
    ¬ Relation.TransGen (Link nodes key parent) node node := by
  induction reached with
  | top listed bare _ =>
    intro cycle
    obtain ⟨next, step, _⟩ := Relation.TransGen.head'_iff.mp cycle
    rw [step.2.2] at bare
    cases bare
  | under link _ _ ih =>
    intro cycle
    obtain ⟨next, step, rest⟩ := Relation.TransGen.head'_iff.mp cycle
    rw [link_right_unique nodup step link] at rest
    exact ih (Relation.TransGen.tail' rest link)

/-- How many nodes are above a node. -/
noncomputable def depth (nodes : List Node) (key : Node → Key) (parent : Node → Option Key)
    (node : Node) : Nat :=
  open Classical in
  (nodes.filter fun upper => decide (Relation.TransGen (Link nodes key parent) node upper)).length

omit [DecidableEq Key] in
theorem depth_ranked (acyclic : Acyclic nodes key parent) :
    Ranked nodes key parent (depth nodes key parent) := by
  classical
  intro child above link
  have nested : (nodes.filter fun upper =>
      decide (Relation.TransGen (Link nodes key parent) above upper)) =
      (nodes.filter fun upper =>
        decide (Relation.TransGen (Link nodes key parent) child upper)).filter fun upper =>
          decide (Relation.TransGen (Link nodes key parent) above upper) := by
    rw [List.filter_filter]
    apply List.filter_congr
    intro upper _
    by_cases higher : Relation.TransGen (Link nodes key parent) above upper
    · simp [higher, Relation.TransGen.head link higher]
    · simp [higher]
  rw [depth, depth, nested, List.length_filter_lt_length_iff_exists]
  refine ⟨above, ?_, ?_⟩
  · simp [link.2.1, Relation.TransGen.single link]
  · simp [acyclic above]

omit [DecidableEq Key] in
/-- With every parent listed, a list without cycles hangs from its top. -/
theorem reached_of_acyclic (acyclic : Acyclic nodes key parent)
    (closed : ∀ node ∈ nodes, ∀ above, parent node = some above → ∃ upper ∈ nodes, key upper = above)
    {node : Node} (listed : node ∈ nodes) : Reached nodes key parent (fun _ => True) node := by
  induction height : depth nodes key parent node using Nat.strongRecOn generalizing node with
  | ind height ih =>
    cases named : parent node with
    | none => exact .top listed named trivial
    | some above =>
      obtain ⟨upper, upperListed, rfl⟩ := closed node listed above named
      have link : Link nodes key parent node upper := ⟨listed, upperListed, named⟩
      have falls := depth_ranked acyclic _ _ link
      exact .under link (ih _ (by omega) upperListed rfl) trivial

omit [DecidableEq Key] in
theorem all_reached_iff_acyclic (nodup : (nodes.map key).Nodup)
    (closed : ∀ node ∈ nodes, ∀ above, parent node = some above →
      ∃ upper ∈ nodes, key upper = above) :
    (∀ node ∈ nodes, Reached nodes key parent (fun _ => True) node) ↔
      Acyclic nodes key parent := by
  constructor
  · intro all node cycle
    obtain ⟨next, step, _⟩ := Relation.TransGen.head'_iff.mp cycle
    exact (all node step.1).not_above_itself nodup cycle
  · intro acyclic node listed
    exact reached_of_acyclic acyclic closed listed

/-! ### The part that is kept -/

/-- The nodes reached from the top through nodes that are kept. -/
noncomputable def keptNodes (nodes : List Node) (key : Node → Key) (parent : Node → Option Key)
    (keep : Node → Bool) : List Node :=
  open Classical in
  nodes.filter fun node => decide (Reached nodes key parent (fun other => keep other = true) node)

section Kept

variable {keep : Node → Bool}

omit [DecidableEq Key] in
theorem mem_keptNodes {node : Node} :
    node ∈ keptNodes nodes key parent keep ↔
      Reached nodes key parent (fun other => keep other = true) node := by
  classical
  simp only [keptNodes, List.mem_filter, decide_eq_true_eq]
  exact ⟨fun both => both.2, fun reached => ⟨reached.listed, reached⟩⟩

omit [DecidableEq Key] in
theorem keptNodes_sublist : (keptNodes nodes key parent keep).Sublist nodes :=
  List.filter_sublist

omit [DecidableEq Key] in
theorem keptNodes_nodup (nodup : (nodes.map key).Nodup) :
    ((keptNodes nodes key parent keep).map key).Nodup :=
  nodup.sublist (keptNodes_sublist.map key)

omit [DecidableEq Key] in
theorem keptNodes_acyclic (nodup : (nodes.map key).Nodup) :
    Acyclic (keptNodes nodes key parent keep) key parent := by
  intro node cycle
  have lifted : Relation.TransGen (Link nodes key parent) node node := by
    apply cycle.lift id
    intro child above link
    exact ⟨(mem_keptNodes.mp link.1).listed, (mem_keptNodes.mp link.2.1).listed, link.2.2⟩
  obtain ⟨next, step, _⟩ := Relation.TransGen.head'_iff.mp cycle
  exact (mem_keptNodes.mp step.1).not_above_itself nodup lifted

omit [DecidableEq Key] in
theorem keptNodes_closed {node : Node} (listed : node ∈ keptNodes nodes key parent keep)
    {above : Key} (named : parent node = some above) :
    ∃ upper ∈ keptNodes nodes key parent keep, key upper = above := by
  cases mem_keptNodes.mp listed with
  | top _ bare =>
    rw [named] at bare
    cases bare
  | @under _ upper link reached _ =>
    exact ⟨upper, mem_keptNodes.mpr reached, Option.some.inj (link.2.2.symm.trans named)⟩

/-- Below a kept node, the kept children are all that is kept. -/
theorem childrenOf_keptNodes {node : Node}
    (reached : Reached nodes key parent (fun other => keep other = true) node) :
    childrenOf (keptNodes nodes key parent keep) parent (key node) =
      (childrenOf nodes parent (key node)).filter keep := by
  classical
  simp only [childrenOf, keptNodes, List.filter_filter]
  apply List.filter_congr
  intro child listed
  by_cases linked : parent child = some (key node)
  · have link : Link nodes key parent child node := ⟨listed, reached.listed, linked⟩
    by_cases kept : keep child = true
    · simp [linked, kept, Reached.under link reached kept]
    · have unreached : ¬ Reached nodes key parent (fun other => keep other = true) child :=
        fun other => kept other.kept
      simp [linked, kept, unreached]
  · simp [linked]

/-- The walk over the kept nodes lists all of them; the length of the whole list is fuel
enough. -/
theorem mem_preorder_kept (nodup : (nodes.map key).Nodup) {root : Node}
    (rootKept : root ∈ keptNodes nodes key parent keep)
    (onlyRoot : ∀ node ∈ nodes, parent node = none → node = root) {node : Node} :
    node ∈ preorder (keptNodes nodes key parent keep) key parent nodes.length root ↔
      Reached nodes key parent (fun other => keep other = true) node := by
  have acyclic : Acyclic (keptNodes nodes key parent keep) key parent := keptNodes_acyclic nodup
  have ranked := depth_ranked acyclic
  rw [← mem_keptNodes]
  constructor
  · intro visited
    exact (preorder_below rootKept visited).1
  · intro listed
    apply preorder_complete (compressed_ranked ranked) (fun _ => compressed_lt _) rootKept
    · exact Nat.le_trans keptNodes_sublist.length_le (Nat.le_add_left _ _)
    · apply below_root ranked _ (fun _ => keptNodes_closed) listed
      intro other otherListed bare
      exact onlyRoot other (mem_keptNodes.mp otherListed).listed bare

theorem preorder_kept_nodup (nodup : (nodes.map key).Nodup) (fuel : Nat) {start : Node}
    (listed : start ∈ keptNodes nodes key parent keep) :
    (preorder (keptNodes nodes key parent keep) key parent fuel start).Nodup :=
  preorder_nodup (depth_ranked (keptNodes_acyclic nodup)) (keptNodes_nodup nodup) fuel listed

end Kept

end Fantastic.ParentForest
