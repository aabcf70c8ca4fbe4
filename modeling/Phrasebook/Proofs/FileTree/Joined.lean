import Phrasebook.Proofs.FileTree.Spelling

/-!
# Paths with names behind them

Names behind a path lead downwards from where it leads.  A path with names behind it begins as the
path does, and says by itself what stood in front of the names, but for a slash at its end.
-/

namespace Phrasebook
namespace Path

/-- A path with names behind it. -/
def joinAll (path : Path) (names : List String) : Path :=
  names.foldl (fun path name => path.join ⟨name⟩) path

@[simp] theorem joinAll_nil (path : Path) : path.joinAll [] = path :=
  rfl

@[simp] theorem joinAll_cons (path : Path) (name : String) (rest : List String) :
    path.joinAll (name :: rest) = (path.join ⟨name⟩).joinAll rest :=
  rfl

theorem joinAll_append (path : Path) (front back : List String) :
    path.joinAll (front ++ back) = (path.joinAll front).joinAll back :=
  List.foldl_append ..

section
variable {path : Path} {names : List String} (plain : ∀ name ∈ names, Plain name.toList)
include plain

theorem isAbsolute_joinAll : (path.joinAll names).isAbsolute = path.isAbsolute := by
  induction names generalizing path with
  | nil => rfl
  | cons name rest ih =>
      obtain ⟨plainName, plain⟩ := List.forall_mem_cons.mp plain
      exact (ih plain).trans (isAbsolute_join (not_isAbsolute_of_plain plainName))

theorem pieces_joinAll :
    FileTree.pieces (path.joinAll names).text = FileTree.pieces path.text ++ names := by
  induction names generalizing path with
  | nil => simp
  | cons name rest ih =>
      obtain ⟨plainName, plain⟩ := List.forall_mem_cons.mp plain
      rw [joinAll_cons, ih plain, pieces_join (not_isAbsolute_of_plain plainName),
        pieces_of_plain plainName, List.append_assoc, List.singleton_append]

theorem opening_joinAll (somewhere : path.text ≠ "") :
    (path.joinAll names).opening = path.opening := by
  induction names generalizing path with
  | nil => rfl
  | cons name rest ih =>
      obtain ⟨plainName, plain⟩ := List.forall_mem_cons.mp plain
      have joined : (path.join ⟨name⟩).text ≠ "" := by
        obtain ⟨back, text⟩ := isPrefix_join plainName path
        intro nowhere
        rw [nowhere] at text
        exact somewhere (String.toList_eq_nil_iff.mp (List.append_eq_nil_iff.mp text).1)
      exact (ih plain joined).trans (opening_join (not_isAbsolute_of_plain plainName) somewhere)

/-- Names behind a path lead downwards from its place. -/
theorem place_joinAll (tree : FileTree) :
    tree.place (path.joinAll names) = tree.place path ++ names := by
  have downwards : ∀ name ∈ names, name ≠ "" ∧ name ≠ ".." := fun name member =>
    ⟨(FileTree.ne_of_plain (plain name member)).1, (FileTree.ne_of_plain (plain name member)).2.2⟩
  have noHere : names.filter (· ≠ ".") = names := by
    rw [List.filter_eq_self]
    intro name member
    simpa using (FileTree.ne_of_plain (plain name member)).2.1
  rw [FileTree.place, FileTree.origin, isAbsolute_joinAll plain, pieces_joinAll plain,
    FileTree.descend_append, FileTree.descend_of_names downwards, noHere]
  rfl

end

variable {path left right : Path} {name : String} {names : List String}

/-- The path with a slash at its end. -/
def slashed (path : Path) : Path :=
  path.join ⟨""⟩

/-- Whether a path names something and has no slash at its end. -/
structure Unslashed (path : Path) : Prop where
  somewhere : path.text ≠ ""
  notEnded : path.text.toList.getLast? ≠ some '/'

theorem text_slashed (path : Path) : path.slashed.text =
    if path.text = "" ∨ path.text.toList.getLast? = some '/' then path.text
    else path.text ++ "/" := by
  have nothing : (Path.mk "").isAbsolute = false := rfl
  unfold slashed join
  rw [nothing, if_neg Bool.false_ne_true]
  split
  · exact String.append_empty
  · exact String.append_empty

theorem text_join_eq (relative : (Path.mk name).isAbsolute = false) (path : Path) :
    (path.join ⟨name⟩).text = path.slashed.text ++ name := by
  rw [text_slashed, join, relative, if_neg Bool.false_ne_true]
  split
  · rfl
  · rfl

theorem slashed_of_unslashed (unslashed : Unslashed path) :
    path.slashed.text = path.text ++ "/" := by
  rw [text_slashed, if_neg (not_or.mpr ⟨unslashed.somewhere, unslashed.notEnded⟩)]

theorem slashed_of_ended (ended : path.text = "" ∨ path.text.toList.getLast? = some '/') :
    path.slashed = path :=
  congrArg Path.mk ((text_slashed path).trans (if_pos ended))

theorem eq_of_slashed (first : Unslashed left) (second : Unslashed right)
    (same : left.slashed = right.slashed) : left = right := by
  have text := congrArg (fun path => path.text.toList) same
  simp only [slashed_of_unslashed first, slashed_of_unslashed second, String.toList_append,
    List.append_cancel_right_eq, String.toList_inj] at text
  cases left
  cases right
  exact congrArg Path.mk text

theorem slashed_cases (path : Path) :
    path.slashed.text = "" ∨ ∃ directory, path.slashed.text = directory ++ "/" := by
  by_cases nowhere : path.text = ""
  · rw [slashed_of_ended (.inl nowhere)]
    exact .inl nowhere
  · by_cases ended : path.text.toList.getLast? = some '/'
    · obtain ⟨front, whole⟩ := List.getLast?_eq_some_iff.mp ended
      refine .inr ⟨String.ofList front, ?_⟩
      rw [slashed_of_ended (.inr ended), ← String.toList_inj]
      simp [whole]
    · exact .inr ⟨path.text, slashed_of_unslashed ⟨nowhere, ended⟩⟩

theorem unslashed_join_of_not_mem (named : name ≠ "") (noSlash : '/' ∉ name.toList)
    (path : Path) : Unslashed (path.join ⟨name⟩) := by
  have text := text_join_eq (not_isAbsolute_of_not_mem noSlash) path
  have nonempty : name.toList ≠ [] := fun nothing => named (String.toList_eq_nil_iff.mp nothing)
  constructor
  · intro nowhere
    rw [text, ← String.toList_eq_nil_iff, String.toList_append, List.append_eq_nil_iff] at nowhere
    exact nonempty nowhere.2
  · intro ended
    rw [text, String.toList_append, List.getLast?_append_of_ne_nil _ nonempty] at ended
    exact noSlash (List.mem_of_getLast? ended)

theorem unslashed_join (plain : Plain name.toList) (path : Path) :
    Unslashed (path.join ⟨name⟩) :=
  unslashed_join_of_not_mem (FileTree.ne_of_plain plain).1 plain.noSlash path

/-- Whatever stands behind two paths, they differ in more than a slash at the end if the whole
paths differ. -/
theorem joinAll_eq_of_slashed (plain : ∀ name ∈ names, Plain name.toList)
    (ended : names = [] → Unslashed left ∧ Unslashed right)
    (same : left.slashed = right.slashed) : left.joinAll names = right.joinAll names := by
  cases names with
  | nil => exact eq_of_slashed (ended rfl).1 (ended rfl).2 same
  | cons name rest =>
      have relative := not_isAbsolute_of_plain (plain name (List.mem_cons_self ..))
      have joined : left.join ⟨name⟩ = right.join ⟨name⟩ := by
        have text : (left.join ⟨name⟩).text = (right.join ⟨name⟩).text := by
          rw [text_join_eq relative, text_join_eq relative, same]
        exact congrArg Path.mk text
      rw [joinAll_cons, joinAll_cons, joined]

theorem slashed_eq_of_joinAll (plain : ∀ name ∈ names, Plain name.toList)
    (same : left.joinAll names = right.joinAll names) : left.slashed = right.slashed := by
  induction names generalizing left right with
  | nil => exact congrArg slashed same
  | cons name rest ih =>
      obtain ⟨plainName, plain⟩ := List.forall_mem_cons.mp plain
      have joined : left.join ⟨name⟩ = right.join ⟨name⟩ :=
        eq_of_slashed (unslashed_join plainName left) (unslashed_join plainName right)
          (ih plain same)
      have text := congrArg (fun path => path.text.toList) joined
      simp only [text_join_eq (not_isAbsolute_of_plain plainName), String.toList_append,
        List.append_cancel_right_eq, String.toList_inj] at text
      exact congrArg Path.mk text

theorem not_isAbsolute_of_split {text : List Char} (plain : ∀ piece ∈ split text, Plain piece) :
    (Path.mk (String.ofList text)).isAbsolute = false := by
  cases text with
  | nil => rfl
  | cons c rest =>
      have noSlash : c ≠ '/' := by
        rintro rfl
        exact (plain [] (by simp [split])).nonempty rfl
      simpa [isAbsolute] using noSlash

/-- A text with plain names between single slashes is those names, one behind the other. -/
theorem join_eq_joinAll {text : List Char} {pieces : List (List Char)}
    (divided : split text = pieces) (plain : ∀ piece ∈ pieces, Plain piece) (path : Path) :
    path.join ⟨String.ofList text⟩ = path.joinAll (pieces.map String.ofList) := by
  induction pieces generalizing text path with
  | nil => exact absurd divided (split_ne_nil text)
  | cons piece others ih =>
      have whole := not_isAbsolute_of_split (divided ▸ plain)
      obtain ⟨plainPiece, plainOthers⟩ := List.forall_mem_cons.mp plain
      by_cases slash : '/' ∈ text
      · obtain ⟨front, back, rfl, noSlash⟩ := List.eq_append_cons_of_mem slash
        rw [split_append_slash, split_of_not_mem noSlash, List.singleton_append] at divided
        obtain ⟨rfl, rfl⟩ := List.cons.inj divided
        have plainName : Plain (String.ofList front).toList := by rwa [String.toList_ofList]
        have relative := not_isAbsolute_of_split plainOthers
        have text : (path.join ⟨String.ofList (front ++ '/' :: back)⟩).text =
            ((path.join ⟨String.ofList front⟩).join ⟨String.ofList back⟩).text := by
          rw [text_join_eq whole, text_join_eq relative,
            slashed_of_unslashed (unslashed_join plainName path),
            text_join_eq (not_isAbsolute_of_plain plainName), ← String.toList_inj]
          simp
        rw [List.map_cons, joinAll_cons, ← ih rfl plainOthers]
        exact congrArg Path.mk text
      · rw [split_of_not_mem slash] at divided
        obtain ⟨rfl, rfl⟩ := List.cons.inj divided
        rfl

end Path
end Phrasebook
