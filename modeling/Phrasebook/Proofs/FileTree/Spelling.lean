import Phrasebook.Proofs.FileTree.Directory

/-!
# How paths are spelled

A path is an opening, the root, a point or nothing, and then names.  Whether one path begins
another one is a question about both.  Where a path leads depends on the names, and on the opening
only as far as it is the root, unless a link stands on the way.
-/

namespace Phrasebook
namespace Path

open FileTree

variable {path base : Path}

/-- What stands before the names of a path: the root, a point, or nothing. -/
def opening (path : Path) : Option Part :=
  path.parts.head?.filter fun part => part = .root ∨ part = .here

/-- The names in a path, `..` among them. -/
def names (path : Path) : List String :=
  (pieces path.text).filter (· ≠ ".")

/-- The part that a text between slashes is. -/
def partOf (name : String) : Part :=
  Part.ofText name.toList

@[simp] theorem text_partOf (name : String) : (partOf name).text = name := by
  unfold partOf Part.ofText
  split
  · rename_i here
    rw [← String.ofList_toList (s := name), here]
    rfl
  · split
    · rename_i up
      rw [← String.ofList_toList (s := name), up]
      rfl
    · exact String.ofList_toList

theorem partOf_injective : Function.Injective partOf :=
  Function.LeftInverse.injective text_partOf

theorem partOf_ne_root (name : String) : partOf name ≠ .root := by
  unfold partOf Part.ofText
  split
  · simp
  · split
    · simp
    · simp

theorem partOf_eq_here_iff {name : String} : partOf name = .here ↔ name = "." :=
  partOf_injective.eq_iff' rfl

theorem partOf_eq_up_iff {name : String} : partOf name = .up ↔ name = ".." :=
  partOf_injective.eq_iff' rfl

/-- The parts behind the opening. -/
theorem filter_map_ofText (pieces : List (List Char)) :
    (pieces.map Part.ofText).filter (· ≠ .here) =
      ((pieces.map String.ofList).filter (· ≠ ".")).map partOf := by
  have same : ∀ piece, partOf (String.ofList piece) = Part.ofText piece := by
    intro piece
    rw [partOf, String.toList_ofList]
  rw [List.filter_map, List.filter_map, List.map_map]
  congr 1
  · funext piece
    exact (same piece).symm
  · congr 1
    funext piece
    exact decide_eq_decide.mpr (by rw [Ne, ← same, partOf_eq_here_iff])

theorem parts_of_absolute (absolute : path.isAbsolute = true) :
    path.parts = .root :: path.names.map partOf := by
  unfold parts
  simp only [absolute, if_true, filter_map_ofText]
  rfl

theorem parts_of_relative (relative : path.isAbsolute = false) :
    path.parts =
      (if (pieces path.text).head? = some "." then [.here] else []) ++ path.names.map partOf := by
  unfold parts
  simp only [relative, Bool.false_eq_true, if_false, filter_map_ofText]
  split
  · rename_i rest equal
    have pieces : FileTree.pieces path.text = "." :: rest.map String.ofList := by
      rw [FileTree.pieces, equal]
      rfl
    simp [names, pieces]
  · rename_i notHere
    rw [if_neg]
    · rfl
    · intro first
      rw [FileTree.pieces, List.head?_map] at first
      obtain ⟨piece, head, equal⟩ := Option.map_eq_some_iff.mp first
      obtain ⟨rest, split⟩ := List.head?_eq_some_iff.mp head
      refine notHere rest ?_
      rw [split, show piece = ['.'] by rw [← String.toList_ofList (l := piece), equal]; rfl]

theorem opening_of_absolute (absolute : path.isAbsolute = true) : path.opening = some .root := by
  rw [opening, parts_of_absolute absolute]
  rfl

theorem opening_of_relative (relative : path.isAbsolute = false) :
    path.opening = if (pieces path.text).head? = some "." then some .here else none := by
  rw [opening, parts_of_relative relative]
  split
  · rfl
  · rw [List.nil_append, List.head?_map, Option.filter_eq_none_iff]
    intro part first
    obtain ⟨name, head, rfl⟩ := Option.map_eq_some_iff.mp first
    have notHere : name ≠ "." := by
      rintro rfl
      have member : "." ∈ path.names := List.mem_of_head? head
      simp [names] at member
    simp [partOf_ne_root, partOf_eq_here_iff, notHere]

/-- A path is its opening and its names. -/
theorem parts_eq_opening (path : Path) :
    path.parts = path.opening.toList ++ path.names.map partOf := by
  cases absolute : path.isAbsolute with
  | true => rw [parts_of_absolute absolute, opening_of_absolute absolute]; rfl
  | false =>
      rw [parts_of_relative absolute, opening_of_relative absolute]
      split
      · rfl
      · rfl

theorem opening_eq_root_iff : path.opening = some .root ↔ path.isAbsolute = true := by
  cases absolute : path.isAbsolute with
  | true => simp [opening_of_absolute absolute]
  | false =>
      rw [opening_of_relative absolute]
      split
      · simp
      · simp

theorem up_mem_parts_iff : Part.up ∈ path.parts ↔ ".." ∈ path.names := by
  have notOpening : Part.up ∉ path.opening.toList := by
    rw [opening, Option.mem_toList, Option.filter_eq_some_iff]
    simp
  rw [parts_eq_opening, List.mem_append, List.mem_map]
  constructor
  · rintro (member | ⟨name, member, equal⟩)
    · exact absurd member notOpening
    · rwa [← partOf_eq_up_iff.mp equal]
  · intro member
    exact .inr ⟨"..", member, rfl⟩

/-- A path that has parts begins those with the same opening whose names its own begin. -/
theorem startsWith_iff (some : base.parts ≠ []) :
    path.startsWith base = true ↔ base.opening = path.opening ∧ base.names <+: path.names := by
  rw [startsWith, List.isPrefixOf_iff_prefix]
  constructor
  · intro begins
    have sameHead : base.parts.head? = path.parts.head? := by
      obtain ⟨rest, equal⟩ := begins
      rw [← equal, List.head?_append_of_ne_nil _ some]
    have sameOpening : base.opening = path.opening := by rw [opening, sameHead, opening]
    rw [base.parts_eq_opening, path.parts_eq_opening, sameOpening, List.prefix_append_right_inj]
      at begins
    exact ⟨sameOpening, (List.prefix_map_iff_of_injective partOf_injective).mp begins⟩
  · rintro ⟨sameOpening, begins⟩
    rw [base.parts_eq_opening, path.parts_eq_opening, sameOpening, List.prefix_append_right_inj]
    exact begins.map partOf

theorem pieces_of_not_mem {name : String} (noSlash : '/' ∉ name.toList) :
    pieces name = if name = "" then [] else [name] := by
  rw [pieces, split_of_not_mem noSlash]
  by_cases empty : name = ""
  · simp [empty]
  · simp [empty]

theorem pieces_of_plain {name : String} (plain : Plain name.toList) : pieces name = [name] := by
  rw [pieces_of_not_mem plain.noSlash, if_neg (ne_of_plain plain).1]

theorem pieces_ne_nil (relative : path.isAbsolute = false) (somewhere : path.text ≠ "") :
    pieces path.text ≠ [] := by
  cases text : path.text.toList with
  | nil => exact absurd (String.toList_eq_nil_iff.mp text) somewhere
  | cons c rest =>
      have noSlash : c ≠ '/' := by simpa [isAbsolute, text] using relative
      rw [pieces, text, split, if_neg noSlash]
      split
      · simp
      · simp

section
variable {left right : Path} (relative : right.isAbsolute = false)
include relative

theorem pieces_join : pieces (left.join right).text = pieces left.text ++ pieces right.text := by
  unfold join
  rw [relative, if_neg Bool.false_ne_true]
  by_cases nowhere : left.text = ""
  · simp [nowhere, pieces, split]
  · by_cases ended : left.text.toList.getLast? = some '/'
    · obtain ⟨front, text⟩ := List.getLast?_eq_some_iff.mp ended
      simp [pieces, text, split_append_slash, split]
    · simp [ended, nowhere, pieces, split_append_slash]

theorem isAbsolute_join : (left.join right).isAbsolute = left.isAbsolute := by
  unfold join
  rw [relative, if_neg Bool.false_ne_true]
  cases text : left.text.toList with
  | nil =>
      have nowhere : left.text = "" := String.toList_eq_nil_iff.mp text
      rw [if_pos (.inl nowhere)]
      simpa [isAbsolute, nowhere] using relative
  | cons c rest =>
      split
      · simp [isAbsolute, text]
      · simp [isAbsolute, text]

theorem names_join : (left.join right).names = left.names ++ right.names := by
  rw [names, pieces_join relative, List.filter_append, names, names]

theorem opening_join (somewhere : left.text ≠ "") : (left.join right).opening = left.opening := by
  cases absolute : left.isAbsolute with
  | true =>
      rw [opening_of_absolute absolute,
        opening_of_absolute ((isAbsolute_join relative).trans absolute)]
  | false =>
      rw [opening_of_relative absolute,
        opening_of_relative ((isAbsolute_join relative).trans absolute), pieces_join relative,
        List.head?_append_of_ne_nil _ (pieces_ne_nil absolute somewhere)]

end

end Path

namespace FileTree

variable {tree : FileTree} {path : Path} {start steps rest location : List String} {step : String}
variable {followLast : Bool}

/-! ## Where names lead -/

/-- Where steps lead from a location if no link stands on the way. -/
def descend (location : List String) : List String → List String
  | [] => location
  | step :: rest =>
      if step = "" ∨ step = "." then descend location rest
      else if step = ".." then descend location.dropLast rest
      else descend (location ++ [step]) rest

theorem descend_append (location front back : List String) :
    descend location (front ++ back) = descend (descend location front) back := by
  induction front generalizing location with
  | nil => rfl
  | cons step rest ih =>
      rw [List.cons_append, descend, descend]
      split
      · exact ih location
      · split
        · exact ih location.dropLast
        · exact ih (location ++ [step])

/-- Names downwards are appended to the location. -/
theorem descend_of_names (downwards : ∀ step ∈ steps, step ≠ "" ∧ step ≠ "..") :
    descend location steps = location ++ steps.filter (· ≠ ".") := by
  induction steps generalizing location with
  | nil => simp [descend]
  | cons step rest ih =>
      obtain ⟨⟨named, notUp⟩, downwards⟩ := List.forall_mem_cons.mp downwards
      rw [descend]
      by_cases here : step = "."
      · rw [if_pos (.inr here), ih downwards, List.filter_cons_of_neg (by simpa using here)]
      · rw [if_neg (not_or.mpr ⟨named, here⟩), if_neg notUp, ih downwards,
          List.filter_cons_of_pos (by simpa using here), List.append_assoc, List.singleton_append]

theorem ne_empty_of_mem_pieces {text : String} (member : step ∈ pieces text) : step ≠ "" := by
  rintro rfl
  obtain ⟨piece, inside, equal⟩ := List.mem_map.mp member
  obtain rfl : piece = [] := by rw [← String.toList_ofList (l := piece), equal]; rfl
  simp at inside

/-- A trailing slash leads no further. -/
theorem descend_steps (location : List String) (text : String) :
    descend location (FileTree.steps text) = descend location (pieces text) := by
  unfold FileTree.steps
  split
  · rw [descend_append]
    simp [descend]
  · rfl

/-- Where the names of a path lead. -/
def place (tree : FileTree) (path : Path) : List String :=
  descend (tree.origin path) (pieces path.text)

/-- Without names upwards the place of a path is where it starts, and then its names. -/
theorem place_eq (downwards : .up ∉ path.parts) :
    tree.place path = tree.origin path ++ path.names := by
  apply descend_of_names
  intro step member
  refine ⟨ne_empty_of_mem_pieces member, ?_⟩
  rintro rfl
  exact downwards (Path.up_mem_parts_iff.mpr (List.mem_filter.mpr ⟨member, rfl⟩))

/-- Whether a path leads where its names say: no link on the way takes it elsewhere. -/
def Direct (tree : FileTree) (path : Path) : Prop :=
  ∀ location, tree.resolve path true = .ok (.taken location) → location = tree.place path

end FileTree

namespace Entry

mutual

/-- Whether a test holds of every name below a node with what has it. -/
def allBelow (test : String → Entry → Bool) : Entry → Bool
  | .file _ => true
  | .link _ => true
  | .dir entries => allAmong test entries

/-- Whether a test holds of every name among some entries and below them. -/
def allAmong (test : String → Entry → Bool) : List (String × Entry) → Bool
  | [] => true
  | (name, entry) :: rest => test name entry && entry.allBelow test && allAmong test rest

end

variable {test : String → Entry → Bool} {entries : List (String × Entry)} {name : String}
variable {root entry : Entry} {location : List String}

theorem allBelow_of_mem (holds : (Entry.dir entries).allBelow test = true)
    (member : (name, entry) ∈ entries) : test name entry = true ∧ entry.allBelow test = true := by
  rw [allBelow] at holds
  induction entries with
  | nil => cases member
  | cons first rest ih =>
      obtain ⟨key, value⟩ := first
      simp only [allAmong, Bool.and_eq_true] at holds
      rcases List.mem_cons.mp member with equal | member
      · obtain ⟨rfl, rfl⟩ := Prod.mk.inj equal
        exact holds.1
      · exact ih holds.2 member

theorem allBelow_of_at? (holds : root.allBelow test = true)
    (there : root.at? location = some entry) : entry.allBelow test = true := by
  induction location generalizing root with
  | nil =>
      cases there
      exact holds
  | cons name rest ih =>
      cases root with
      | file content => cases there
      | link target => cases there
      | dir entries =>
          rw [at?] at there
          obtain ⟨child, held, below⟩ := Option.bind_eq_some_iff.mp there
          exact ih (allBelow_of_mem holds (Table.mem_of_get? held)).2 below

end Entry

namespace FileTree

variable {tree : FileTree} {path : Path} {start steps rest location : List String}

/-- Whether every name in a tree is plain, as it is in every file system. -/
def hasPlainNames (tree : FileTree) : Bool :=
  tree.root.allBelow fun name _ => decide (Path.Plain name.toList)

/-- Whether there are only files and directories in a tree. -/
def isLinkless (tree : FileTree) : Bool :=
  tree.root.allBelow fun _ entry => entry.isDir || entry.isFile

theorem move_of_linkless (linkless : tree.isLinkless = true) (location : List String)
    (step : String) :
    (∀ target, tree.move location step ≠ .link target) ∧
      ∀ next, tree.move location step = .on next → next = descend location [step] := by
  constructor
  · intro target moved
    cases moves_of_eq moved with
    | link _ there held =>
        have below := Entry.allBelow_of_at? linkless there
        cases (Entry.allBelow_of_mem below (Table.mem_of_get? held)).1
  · intro next moved
    cases moves_of_eq moved with
    | here here _ => simp [descend, here]
    | up up _ => simp [descend, up]
    | below named _ _ =>
        rw [IsTurn, not_or, not_or] at named
        simp [descend, named]

theorem descend_of_walk (linkless : tree.isLinkless = true) {followLast : Bool}
    {onLink : List String → List String → Except FileError Spot}
    (leads : tree.walk followLast onLink start steps = .ok (.taken location)) :
    location = descend start steps := by
  induction steps generalizing start with
  | nil =>
      cases leads
      rfl
  | cons step rest ih =>
      obtain ⟨noLink, onward⟩ := move_of_linkless linkless start step
      rcases walk_cons_eq_taken_iff.mp leads with ⟨next, moved, leads⟩ | ⟨target, moved, _⟩
      · rw [← List.singleton_append, descend_append, ← onward next moved]
        exact ih leads
      · exact absurd moved (noLink target)

/-- In a tree without links every path leads where its names say. -/
theorem direct_of_linkless (linkless : tree.isLinkless = true) (path : Path) :
    tree.Direct path := by
  intro location leads
  obtain ⟨onLink, equal⟩ := resolveFrom_eq_walk tree true linkLimit
  rw [resolve_of_sound (sound_of_resolve leads), equal] at leads
  rw [descend_of_walk linkless leads, descend_steps, place]

end FileTree
end Phrasebook
