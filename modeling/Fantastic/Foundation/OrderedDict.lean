import Mathlib.Data.List.Nodup

/-!
# Insertion-ordered dictionaries

A finite map that remembers the order in which its keys first arrived: setting
an existing key replaces its item in place, a fresh key goes to the end. This is
the dictionary of Python and the `Map` of JavaScript. Unique keys are a field of
the structure, so every lookup lemma is unconditional.
-/

namespace Fantastic

structure OrderedDict (Key Item : Type*) where
  entries : List (Key × Item)
  nodup : (entries.map Prod.fst).Nodup

namespace OrderedDict

variable {Key Item : Type*}

@[ext] theorem ext_entries {left right : OrderedDict Key Item}
    (same : left.entries = right.entries) : left = right := by
  cases left
  cases right
  simpa using same

def empty : OrderedDict Key Item where
  entries := []
  nodup := List.nodup_nil

def keys (dict : OrderedDict Key Item) : List Key :=
  dict.entries.map Prod.fst

theorem eq_empty_of_keys {dict : OrderedDict Key Item} (none : dict.keys = []) :
    dict = .empty := by
  apply ext_entries
  exact List.map_eq_nil_iff.mp none

def items (dict : OrderedDict Key Item) : List Item :=
  dict.entries.map Prod.snd

theorem keys_nodup (dict : OrderedDict Key Item) : dict.keys.Nodup := dict.nodup

theorem item_unique {dict : OrderedDict Key Item} {key : Key} {first second : Item}
    (left : (key, first) ∈ dict.entries) (right : (key, second) ∈ dict.entries) :
    first = second := by
  have same := List.inj_on_of_nodup_map dict.nodup left right rfl
  exact congrArg Prod.snd same

def filterKeys (keep : Key → Bool) (dict : OrderedDict Key Item) : OrderedDict Key Item where
  entries := dict.entries.filter fun entry => keep entry.1
  nodup := dict.nodup.sublist (List.filter_sublist.map Prod.fst)

theorem filterKeys_entries (keep : Key → Bool) (dict : OrderedDict Key Item) :
    (dict.filterKeys keep).entries = dict.entries.filter fun entry => keep entry.1 := rfl

/-- Every item changed, the keys and their order kept. -/
def mapItems {Other : Type*} (change : Item → Other) (dict : OrderedDict Key Item) :
    OrderedDict Key Other where
  entries := dict.entries.map fun entry => (entry.1, change entry.2)
  nodup := by
    rw [List.map_map]
    exact dict.nodup

theorem keys_mapItems {Other : Type*} (change : Item → Other) (dict : OrderedDict Key Item) :
    (dict.mapItems change).keys = dict.keys := by
  simp [keys, mapItems]

section Lookup

variable [DecidableEq Key]

def get? (dict : OrderedDict Key Item) (key : Key) : Option Item :=
  (dict.entries.find? fun entry => entry.1 = key).map Prod.snd

def contains (dict : OrderedDict Key Item) (key : Key) : Bool :=
  decide (key ∈ dict.keys)

/-- Setting an item: in place when the key is there, at the end when it is new. -/
def insert (dict : OrderedDict Key Item) (key : Key) (item : Item) : OrderedDict Key Item where
  entries :=
    if key ∈ dict.entries.map Prod.fst then
      dict.entries.map fun entry => if entry.1 = key then (key, item) else entry
    else dict.entries ++ [(key, item)]
  nodup := by
    split
    case isTrue present =>
      have sameKeys :
          (dict.entries.map fun entry => if entry.1 = key then (key, item) else entry).map
            Prod.fst = dict.entries.map Prod.fst := by
        rw [List.map_map]
        apply List.map_congr_left
        intro entry _
        by_cases same : entry.1 = key <;> simp [same]
      rw [sameKeys]
      exact dict.nodup
    case isFalse absent =>
      rw [List.map_append, List.nodup_append]
      refine ⟨dict.nodup, by simp, ?_⟩
      intro old member new fresh
      simp only [List.map_cons, List.map_nil, List.mem_singleton] at fresh
      rintro rfl
      exact absent (fresh ▸ member)

def erase (dict : OrderedDict Key Item) (key : Key) : OrderedDict Key Item :=
  dict.filterKeys fun other => decide (other ≠ key)

/-- Later items win, key by key, as in `dict.update`. -/
def update (dict other : OrderedDict Key Item) : OrderedDict Key Item :=
  other.entries.foldl (fun result entry => result.insert entry.1 entry.2) dict

theorem mem_entries_iff {dict : OrderedDict Key Item} {key : Key} {item : Item} :
    (key, item) ∈ dict.entries ↔ dict.get? key = some item := by
  constructor
  · intro member
    cases found : dict.entries.find? (fun entry => entry.1 = key) with
    | none =>
      have absent := List.find?_eq_none.mp found (key, item) member
      simp at absent
    | some entry =>
      have sameKey : entry.1 = key := by simpa using List.find?_some found
      have entryMember := List.mem_of_find?_eq_some found
      have held : (key, entry.2) ∈ dict.entries := by
        rw [← sameKey]
        exact entryMember
      have sameItem : entry.2 = item := item_unique held member
      simp [get?, found, sameItem]
  · intro found
    simp only [get?, Option.map_eq_some_iff] at found
    rcases found with ⟨entry, hit, sameItem⟩
    have sameKey : entry.1 = key := by simpa using List.find?_some hit
    have member := List.mem_of_find?_eq_some hit
    rw [← sameKey, ← sameItem]
    exact member

theorem get?_eq_none_iff {dict : OrderedDict Key Item} {key : Key} :
    dict.get? key = none ↔ key ∉ dict.keys := by
  simp only [get?, Option.map_eq_none_iff, List.find?_eq_none, keys, List.mem_map]
  constructor
  · rintro absent ⟨entry, member, same⟩
    exact absent entry member (by simpa using same)
  · intro absent entry member same
    exact absent ⟨entry, member, by simpa using same⟩

theorem mem_keys_iff {dict : OrderedDict Key Item} {key : Key} :
    key ∈ dict.keys ↔ ∃ item, dict.get? key = some item := by
  rw [← Option.ne_none_iff_exists', ne_eq, get?_eq_none_iff, not_not]

@[simp] theorem get?_empty (key : Key) : (empty : OrderedDict Key Item).get? key = none := rfl

theorem contains_iff {dict : OrderedDict Key Item} {key : Key} :
    dict.contains key = true ↔ key ∈ dict.keys := by
  simp [contains]

theorem get?_filterKeys (keep : Key → Bool) (dict : OrderedDict Key Item) (key : Key) :
    (dict.filterKeys keep).get? key = if keep key then dict.get? key else none := by
  apply Option.ext
  intro item
  rw [← mem_entries_iff]
  simp only [filterKeys, List.mem_filter]
  by_cases kept : keep key
  · simp [kept, mem_entries_iff]
  · simp [kept]

theorem get?_erase (dict : OrderedDict Key Item) (removed key : Key) :
    (dict.erase removed).get? key = if key = removed then none else dict.get? key := by
  rw [erase, get?_filterKeys]
  by_cases same : key = removed <;> simp [same]

theorem mem_items_iff {dict : OrderedDict Key Item} {item : Item} :
    item ∈ dict.items ↔ ∃ key, dict.get? key = some item := by
  simp only [items, List.mem_map, Prod.exists, mem_entries_iff]
  constructor
  · intro listed
    obtain ⟨key, other, found, same⟩ := listed
    exact ⟨key, same ▸ found⟩
  · intro listed
    obtain ⟨key, found⟩ := listed
    exact ⟨key, item, found, rfl⟩

theorem mem_keys_erase {dict : OrderedDict Key Item} {removed key : Key} :
    key ∈ (dict.erase removed).keys ↔ key ≠ removed ∧ key ∈ dict.keys := by
  rw [mem_keys_iff, get?_erase, mem_keys_iff]
  by_cases same : key = removed <;> simp [same]

theorem erase_head {dict : OrderedDict Key Item} {key : Key} {item : Item}
    {rest : List (Key × Item)} (split : dict.entries = (key, item) :: rest) :
    (dict.erase key).entries = rest := by
  have nodup := dict.nodup
  rw [split, List.map_cons, List.nodup_cons] at nodup
  simp only [erase, filterKeys, split, List.filter_cons]
  simp only [ne_eq, not_true_eq_false, decide_false, Bool.false_eq_true, if_false,
    List.filter_eq_self]
  intro entry member
  simp only [decide_eq_true_eq]
  intro same
  exact nodup.1 (List.mem_map.mpr ⟨entry, member, same⟩)

theorem keys_erase_head {dict : OrderedDict Key Item} {key : Key} {keys : List Key}
    (split : dict.keys = key :: keys) : (dict.erase key).keys = keys := by
  unfold OrderedDict.keys at split ⊢
  cases entries : dict.entries with
  | nil => simp [entries] at split
  | cons head rest =>
    obtain ⟨first, item⟩ := head
    rw [entries, List.map_cons, List.cons.injEq] at split
    obtain ⟨rfl, others⟩ := split
    rw [erase_head entries, others]

theorem insert_entries_of_fresh {dict : OrderedDict Key Item} {key : Key}
    (fresh : key ∉ dict.keys) (item : Item) :
    (dict.insert key item).entries = dict.entries ++ [(key, item)] :=
  if_neg fresh

theorem insert_entries_of_present {dict : OrderedDict Key Item} {key : Key}
    (present : key ∈ dict.keys) (item : Item) :
    (dict.insert key item).entries =
      dict.entries.map fun entry => if entry.1 = key then (key, item) else entry :=
  if_pos present

theorem get?_insert (dict : OrderedDict Key Item) (key : Key) (item : Item) (other : Key) :
    (dict.insert key item).get? other = if other = key then some item else dict.get? other := by
  apply Option.ext
  intro value
  rw [← mem_entries_iff]
  by_cases present : key ∈ dict.keys
  · rw [insert_entries_of_present present, List.mem_map]
    by_cases same : other = key
    · subst same
      rw [if_pos rfl]
      constructor
      · rintro ⟨entry, _, hit⟩
        by_cases sameKey : entry.1 = other
        · simp only [sameKey, if_pos] at hit
          exact congrArg some (congrArg Prod.snd hit)
        · rw [if_neg sameKey] at hit
          exact absurd (congrArg Prod.fst hit) sameKey
      · intro hit
        rcases List.mem_map.mp present with ⟨entry, member, sameKey⟩
        refine ⟨entry, member, ?_⟩
        rw [if_pos sameKey, Option.some.inj hit]
    · rw [if_neg same, ← mem_entries_iff]
      constructor
      · rintro ⟨entry, member, hit⟩
        by_cases sameKey : entry.1 = key
        · rw [if_pos sameKey] at hit
          exact absurd (congrArg Prod.fst hit).symm same
        · rw [if_neg sameKey] at hit
          rwa [← hit]
      · intro member
        exact ⟨(other, value), member, if_neg same⟩
  · rw [insert_entries_of_fresh present, List.mem_append, List.mem_singleton, mem_entries_iff]
    have absent : dict.get? key = none := get?_eq_none_iff.mpr present
    by_cases same : other = key
    · subst same
      simp [absent, eq_comm]
    · simp [same]

@[simp] theorem get?_insert_self (dict : OrderedDict Key Item) (key : Key) (item : Item) :
    (dict.insert key item).get? key = some item := by
  rw [get?_insert, if_pos rfl]

theorem get?_insert_of_ne (dict : OrderedDict Key Item) {key other : Key} (item : Item)
    (different : other ≠ key) : (dict.insert key item).get? other = dict.get? other := by
  rw [get?_insert, if_neg different]

theorem mem_keys_insert {dict : OrderedDict Key Item} {key other : Key} {item : Item} :
    other ∈ (dict.insert key item).keys ↔ other = key ∨ other ∈ dict.keys := by
  rw [mem_keys_iff, get?_insert, mem_keys_iff]
  by_cases same : other = key <;> simp [same]

private theorem get?_foldl_insert (added : List (Key × Item)) (nodup : (added.map Prod.fst).Nodup)
    (dict : OrderedDict Key Item) (key : Key) :
    (added.foldl (fun result entry => result.insert entry.1 entry.2) dict).get? key =
      ((added.find? fun entry => entry.1 = key).map Prod.snd).or (dict.get? key) := by
  induction added generalizing dict with
  | nil => rfl
  | cons entry rest ih =>
    simp only [List.map_cons, List.nodup_cons] at nodup
    rw [List.foldl_cons, ih nodup.2, get?_insert]
    by_cases same : entry.1 = key
    · have absent : rest.find? (fun other => other.1 = key) = none := by
        rw [List.find?_eq_none]
        intro other member hit
        refine nodup.1 (List.mem_map.mpr ⟨other, member, ?_⟩)
        rw [same]
        simpa using hit
      simp [absent, same]
    · simp [same, Ne.symm same]

theorem get?_update (dict other : OrderedDict Key Item) (key : Key) :
    (dict.update other).get? key = (other.get? key).or (dict.get? key) :=
  get?_foldl_insert other.entries other.nodup dict key

theorem mem_keys_update {dict other : OrderedDict Key Item} {key : Key} :
    key ∈ (dict.update other).keys ↔ key ∈ other.keys ∨ key ∈ dict.keys := by
  rw [mem_keys_iff, get?_update, mem_keys_iff, mem_keys_iff]
  cases other.get? key <;> simp

private theorem foldl_insert_entries (added : List (Key × Item))
    (nodup : (added.map Prod.fst).Nodup) (dict : OrderedDict Key Item)
    (fresh : ∀ entry ∈ added, entry.1 ∉ dict.keys) :
    (added.foldl (fun result entry => result.insert entry.1 entry.2) dict).entries =
      dict.entries ++ added := by
  induction added generalizing dict with
  | nil => simp
  | cons entry rest ih =>
    simp only [List.map_cons, List.nodup_cons] at nodup
    have headFresh : entry.1 ∉ dict.keys := fresh entry (by simp)
    have tailFresh : ∀ other ∈ rest, other.1 ∉ (dict.insert entry.1 entry.2).keys := by
      intro other member present
      rcases mem_keys_insert.mp present with same | old
      · exact nodup.1 (same ▸ List.mem_map_of_mem member)
      · exact fresh other (List.mem_cons_of_mem _ member) old
    rw [List.foldl_cons, ih nodup.2 _ tailFresh, insert_entries_of_fresh headFresh]
    simp

/-- Merging a dictionary with disjoint keys appends its entries in order. -/
theorem update_entries_of_disjoint {dict other : OrderedDict Key Item}
    (disjoint : ∀ key ∈ other.keys, key ∉ dict.keys) :
    (dict.update other).entries = dict.entries ++ other.entries := by
  apply foldl_insert_entries other.entries other.nodup dict
  intro entry member
  exact disjoint entry.1 (List.mem_map_of_mem member)

theorem empty_update (other : OrderedDict Key Item) : empty.update other = other := by
  apply ext_entries
  rw [update_entries_of_disjoint (by simp [empty, keys])]
  rfl

theorem get?_mapItems {Other : Type*} (change : Item → Other) (dict : OrderedDict Key Item)
    (key : Key) : (dict.mapItems change).get? key = (dict.get? key).map change := by
  unfold get? mapItems
  rw [List.find?_map, Option.map_map, Option.map_map]
  rfl

/-- Setting a key that a filter drops does not show through the filter. -/
theorem filterKeys_insert {keep : Key → Bool} {key : Key} (dropped : keep key = false)
    (dict : OrderedDict Key Item) (item : Item) :
    (dict.insert key item).filterKeys keep = dict.filterKeys keep := by
  apply ext_entries
  rw [filterKeys_entries, filterKeys_entries]
  by_cases present : key ∈ dict.keys
  · rw [insert_entries_of_present present]
    generalize dict.entries = entries
    induction entries with
    | nil => rfl
    | cons entry entries ih =>
      by_cases same : entry.1 = key
      · simp [same, dropped, ih]
      · simp [same, List.filter_cons, ih]
  · rw [insert_entries_of_fresh present, List.filter_append]
    simp [dropped]

/-- An update with keys of its own is what is left once the earlier keys are dropped. -/
theorem filterKeys_update {keep : Key → Bool} {dict other : OrderedDict Key Item}
    (dropped : ∀ key ∈ dict.keys, keep key = false)
    (kept : ∀ key ∈ other.keys, keep key = true) : (dict.update other).filterKeys keep = other := by
  have disjoint : ∀ key ∈ other.keys, key ∉ dict.keys := by
    intro key later early
    have here := kept key later
    rw [dropped key early] at here
    exact Bool.false_ne_true here
  apply ext_entries
  rw [filterKeys_entries, update_entries_of_disjoint disjoint, List.filter_append,
    List.filter_eq_nil_iff.mpr, List.filter_eq_self.mpr, List.nil_append]
  · intro entry member
    exact kept entry.1 (List.mem_map_of_mem member)
  · intro entry member
    rw [dropped entry.1 (List.mem_map_of_mem member)]
    exact Bool.false_ne_true

/-- Setting a key to the item it has changes nothing, order included. -/
theorem insert_of_get? {dict : OrderedDict Key Item} {key : Key} {item : Item}
    (there : dict.get? key = some item) : dict.insert key item = dict := by
  have present : key ∈ dict.keys := mem_keys_iff.mpr ⟨item, there⟩
  apply ext_entries
  rw [insert_entries_of_present present]
  conv_rhs => rw [← List.map_id dict.entries]
  apply List.map_congr_left
  intro entry member
  split
  case isTrue same =>
    have here : (key, entry.2) ∈ dict.entries := same ▸ member
    rw [mem_entries_iff, there] at here
    rw [Option.some.inj here, ← same]
    rfl
  case isFalse => rfl

end Lookup

end OrderedDict

end Fantastic
