import Mathlib.Data.List.Basic

/-!
# Pure POSIX paths

Paths as `pathlib.PurePosixPath` keeps them: an optional root and the list of
parts, with empty and `.` parts dropped and `..` kept. Joining an absolute text
starts over from that text.
-/

namespace Fantastic

structure PurePath where
  root : String
  parts : List String
  deriving DecidableEq

namespace PurePath

def rootOf (text : String) : String :=
  match text.toList with
  | '/' :: '/' :: '/' :: _ => "/"
  | '/' :: '/' :: _ => "//"
  | '/' :: _ => "/"
  | _ => ""

def segments (text : String) : List String :=
  ((text.toList.splitOn '/').map String.ofList).filter fun part => part ≠ "" && part ≠ "."

def ofString (text : String) : PurePath where
  root := rootOf text
  parts := segments text

/-- The `/` operator of `pathlib`. -/
def join (path : PurePath) (text : String) : PurePath :=
  if rootOf text = "" then { path with parts := path.parts ++ segments text }
  else ofString text

/-- A name that is one path segment and stays one: no separator, no `.` or `..`. -/
def PlainSegment (text : String) : Prop :=
  text ≠ "" ∧ text ≠ "." ∧ text ≠ ".." ∧ '/' ∉ text.toList

instance (text : String) : Decidable (PlainSegment text) :=
  inferInstanceAs (Decidable (_ ∧ _ ∧ _ ∧ _))

theorem segments_of_plain {text : String} (plain : PlainSegment text) :
    segments text = [text] := by
  rcases plain with ⟨nonempty, notDot, _, noSlash⟩
  have single : text.toList.splitOn '/' = [text.toList] := by
    apply List.splitOn_eq_singleton_of_beq_eq_false
    intro char member
    rw [beq_eq_false_iff_ne]
    rintro rfl
    exact noSlash member
  simp [segments, single, nonempty, notDot]

theorem rootOf_of_plain {text : String} (plain : PlainSegment text) : rootOf text = "" := by
  have noSlash := plain.2.2.2
  unfold rootOf
  split
  case h_4 => rfl
  all_goals
    rename_i chars
    simp [chars] at noSlash

theorem join_plain {path : PurePath} {text : String} (plain : PlainSegment text) :
    path.join text = { path with parts := path.parts ++ [text] } := by
  rw [join, if_pos (rootOf_of_plain plain), segments_of_plain plain]

/-- `str(path)`. -/
def text (path : PurePath) : String :=
  if path.root = "" && path.parts = [] then "."
  else path.root ++ "/".intercalate path.parts

/-- `path.name`. -/
def name (path : PurePath) : String :=
  path.parts.getLast?.getD ""

/-- `path.relative_to(base)`: the base has to be the path itself or above it. -/
def relativeTo? (path base : PurePath) : Option PurePath :=
  if path.root = base.root && decide (base.parts <+: path.parts) then
    some { root := "", parts := path.parts.drop base.parts.length }
  else none

/-- A name in a directory. -/
abbrev Segment := { text : String // PlainSegment text }

/-- Where a list of parts leads from a place without links: `..` goes up. -/
def walkFrom (place : List Segment) (parts : List String) : List Segment :=
  parts.foldl
    (fun here part =>
      if part = ".." then here.dropLast
      else if plain : PlainSegment part then here ++ [⟨part, plain⟩]
      else here)
    place

theorem walkFrom_append (place : List Segment) (front back : List String) :
    walkFrom place (front ++ back) = walkFrom (walkFrom place front) back :=
  List.foldl_append

theorem walkFrom_plain (place : List Segment) (names : List Segment) :
    walkFrom place (names.map Subtype.val) = place ++ names := by
  induction names generalizing place with
  | nil => simp [walkFrom]
  | cons name names ih =>
    have notUp : name.val ≠ ".." := name.property.2.2.1
    have one : walkFrom place [name.val] = place ++ [name] := by
      simp [walkFrom, notUp, name.property]
    rw [List.map_cons, ← List.singleton_append, walkFrom_append, one, ih, List.append_assoc,
      List.singleton_append]

theorem segments_slash (front back : String) :
    segments (front ++ "/" ++ back) = segments front ++ segments back := by
  have joined : (front ++ "/" ++ back).toList = front.toList ++ '/' :: back.toList := by
    simp
  simp only [segments, joined, List.splitOn_eq_splitOnP]
  rw [List.splitOnP_append_cons _ _ (by simp), List.map_append, List.filter_append]

/-- A row of names, spelled with slashes, reads back. -/
theorem segments_intercalate (names : List Segment) :
    segments ("/".intercalate (names.map Subtype.val)) = names.map Subtype.val := by
  induction names with
  | nil => rfl
  | cons name names ih =>
    cases names with
    | nil => exact segments_of_plain name.property
    | cons next names =>
      simp only [List.map_cons] at ih ⊢
      rw [String.intercalate_cons_cons, segments_slash, ih, segments_of_plain name.property]
      rfl

theorem rootOf_slash {front : String} (plain : PlainSegment front) (back : String) :
    rootOf (front ++ "/" ++ back) = "" := by
  have chars : (front ++ "/" ++ back).toList = front.toList ++ '/' :: back.toList := by
    simp
  have noSlash := plain.2.2.2
  unfold rootOf
  rw [chars]
  cases letters : front.toList with
  | nil => exact absurd (String.toList_eq_nil_iff.mp letters) plain.1
  | cons first rest =>
    rw [letters] at noSlash
    have notSlash : first ≠ '/' := by
      intro same
      exact noSlash (same ▸ List.mem_cons_self)
    split
    case h_4 => rfl
    all_goals
      rename_i starts
      exact absurd (List.cons.inj starts).1 notSlash

theorem ofString_intercalate (names : List Segment) :
    ofString ("/".intercalate (names.map Subtype.val)) =
      { root := "", parts := names.map Subtype.val } := by
  have relative : rootOf ("/".intercalate (names.map Subtype.val)) = "" := by
    cases names with
    | nil => rfl
    | cons name names =>
      cases names with
      | nil => exact rootOf_of_plain name.property
      | cons next names =>
        simp only [List.map_cons]
        rw [String.intercalate_cons_cons]
        exact rootOf_slash name.property _
  rw [ofString, relative, segments_intercalate]

end PurePath

end Fantastic
