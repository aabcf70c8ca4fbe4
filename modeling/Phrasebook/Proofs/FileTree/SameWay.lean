import Phrasebook.Proofs.FileTree.Joined
import Phrasebook.Proofs.FileTree.LastPlace

/-!
# Paths that lead the same way

Empty texts and points between the slashes of a path are no names.  They lead nowhere, and only ask
for a directory.  So paths with the same names lead to the same directory, however they are spelled,
unless one of them is too long to be looked at.
-/

namespace Phrasebook
namespace FileTree

open Phrasebook.Path

variable {tree : FileTree} {path : Path} {start short long location : List String}
variable {entries : List (String × Entry)} {spot : Spot} {step : String}

/-- Whether some steps are others without some of the empty ones and points among them. -/
inductive Shortens : List String → List String → Prop where
  | nil : Shortens [] []
  | keep (step : String) {short long : List String} :
      Shortens short long → Shortens (step :: short) (step :: long)
  | drop {step : String} {short long : List String} :
      step = "" ∨ step = "." → Shortens short long → Shortens short (step :: long)

theorem Shortens.refl (steps : List String) : Shortens steps steps := by
  induction steps with
  | nil => exact .nil
  | cons step rest ih => exact .keep step ih

theorem Shortens.append (front : List String) (shortens : Shortens short long) :
    Shortens (front ++ short) (front ++ long) := by
  induction front with
  | nil => exact shortens
  | cons step rest ih => exact .keep step ih

theorem shortens_filter (steps : List String) : Shortens (steps.filter (· ≠ ".")) steps := by
  induction steps with
  | nil => exact .nil
  | cons step rest ih =>
      by_cases here : step = "."
      · rw [List.filter_cons_of_neg (by simpa using here)]
        exact .drop (.inr here) ih
      · rw [List.filter_cons_of_pos (by simpa using here)]
        exact .keep step ih

/-- A slash at the end of a text is a step, but no piece. -/
theorem shortens_steps (text : String) : Shortens (pieces text) (FileTree.steps text) := by
  unfold FileTree.steps
  split
  · simpa using (Shortens.drop (.inl rfl) .nil).append (pieces text)
  · exact .refl _

theorem move_here (here : step = "" ∨ step = ".")
    (there : tree.root.at? start = some (.dir entries)) : tree.move start step = .on start := by
  have short : ¬ step.utf8ByteSize > 255 := by
    rcases here with rfl | rfl
    · decide
    · decide
  rw [move, if_neg short, there]
  exact if_pos here

/-- Steps are made from directories only. -/
theorem exists_dir_of_walk {onLink : List String → List String → Except FileError Spot}
    {rest : List String} (leads : tree.walk true onLink start (step :: rest) = .ok spot) :
    ∃ entries, tree.root.at? start = some (.dir entries) := by
  by_contra notDir
  rw [walk_cons, move_of_not_dir (not_exists.mp notDir)] at leads
  cases leads

theorem walk_iff_of_shortens {onLink onLink' : List String → List String → Except FileError Spot}
    (shortens : Shortens short long) (there : tree.root.at? location = some (.dir entries))
    (jumps : ∀ start short long, Shortens short long →
      (onLink start short = .ok (.taken location) ↔ onLink' start long = .ok (.taken location))) :
    tree.walk true onLink start short = .ok (.taken location) ↔
      tree.walk true onLink' start long = .ok (.taken location) := by
  induction shortens generalizing start with
  | nil => exact Iff.rfl
  | keep step shortens ih =>
      rw [walk_true_cons_eq_taken_iff, walk_true_cons_eq_taken_iff]
      refine or_congr (exists_congr fun next => and_congr_right fun _ => ih)
        (exists_congr fun target => and_congr_right fun _ => ?_)
      exact jumps _ _ _ (shortens.append (FileTree.steps target))
  | @drop step short long here shortens ih =>
      by_cases dir : ∃ entries, tree.root.at? start = some (.dir entries)
      · obtain ⟨others, stands⟩ := dir
        rw [walk_cons tree true onLink' start step, move_here here stands]
        exact ih
      · -- A step that stays needs a directory, as the next one does and the last place is.
        refine iff_of_false ?_ fun leads => dir (exists_dir_of_walk leads)
        intro leads
        cases short with
        | nil =>
            cases leads
            exact dir ⟨entries, there⟩
        | cons next rest => exact dir (exists_dir_of_walk leads)

/-- To a directory, steps lead with and without empty ones and points. -/
theorem resolveFrom_iff_of_shortens {links : Nat} (shortens : Shortens short long)
    (there : tree.root.at? location = some (.dir entries)) :
    tree.resolveFrom true links start short = .ok (.taken location) ↔
      tree.resolveFrom true links start long = .ok (.taken location) := by
  induction links generalizing start short long with
  | zero => exact walk_iff_of_shortens shortens there (by simp)
  | succ links ih => exact walk_iff_of_shortens shortens there fun _ _ _ => ih

theorem isDir_iff_opens :
    tree.isDir path = true ↔ ∃ location entries, Opens tree path location entries := by
  constructor
  · intro isDir
    obtain ⟨entries, leads⟩ := isDir_iff.mp isDir
    obtain ⟨location, resolved, there⟩ := entry_eq_ok_iff.mp leads
    have sound := sound_of_resolve resolved
    rw [resolve_of_sound sound] at resolved
    exact ⟨location, entries, sound,
      (resolveFrom_iff_of_shortens (shortens_steps path.text) there).mpr resolved, there⟩
  · rintro ⟨location, entries, opens⟩
    exact opens.isDir

theorem Opens.resolve (opens : Opens tree path location entries) :
    tree.resolve path true = .ok (.taken location) := by
  rw [resolve_of_sound opens.sound]
  exact (resolveFrom_iff_of_shortens (shortens_steps path.text) opens.there).mp opens.leads

end FileTree

namespace Path

/-- Whether two paths start at the same place and have the same names. -/
structure SameWay (left right : Path) : Prop where
  absolute : left.isAbsolute = right.isAbsolute
  names : left.names = right.names

variable {path left middle right : Path} {step : String} {steps : List String}

theorem SameWay.refl (path : Path) : SameWay path path :=
  ⟨rfl, rfl⟩

theorem SameWay.symm (same : SameWay left right) : SameWay right left :=
  ⟨same.absolute.symm, same.names.symm⟩

theorem SameWay.trans (first : SameWay left middle) (second : SameWay middle right) :
    SameWay left right :=
  ⟨first.absolute.trans second.absolute, first.names.trans second.names⟩

theorem SameWay.join (same : SameWay left right) (noSlash : '/' ∉ step.toList) :
    SameWay (left.join ⟨step⟩) (right.join ⟨step⟩) := by
  have relative := not_isAbsolute_of_not_mem noSlash
  refine ⟨?_, ?_⟩
  · rw [isAbsolute_join relative, isAbsolute_join relative, same.absolute]
  · rw [names_join relative, names_join relative, same.names]

theorem SameWay.joinAll (same : SameWay left right) (noSlash : ∀ step ∈ steps, '/' ∉ step.toList) :
    SameWay (left.joinAll steps) (right.joinAll steps) := by
  induction steps generalizing left right with
  | nil => exact same
  | cons step rest ih =>
      obtain ⟨noSlash, noSlashes⟩ := List.forall_mem_cons.mp noSlash
      exact ih (same.join noSlash) noSlashes

/-! ## Shorter spellings -/

theorem size_le_slashed (path : Path) :
    path.text.utf8ByteSize ≤ path.slashed.text.utf8ByteSize := by
  rw [text_slashed]
  split
  · exact le_rfl
  · rw [String.utf8ByteSize_append]
    exact Nat.le_add_right ..

theorem text_join_ne_empty (noSlash : '/' ∉ step.toList) (somewhere : path.text ≠ "") :
    (path.join ⟨step⟩).text ≠ "" := by
  rw [Path.join, not_isAbsolute_of_not_mem noSlash, if_neg Bool.false_ne_true]
  split
  · simp [somewhere]
  · simp [somewhere]

theorem text_joinAll_ne_empty (noSlash : ∀ step ∈ steps, '/' ∉ step.toList)
    (somewhere : path.text ≠ "") : (path.joinAll steps).text ≠ "" := by
  induction steps generalizing path with
  | nil => exact somewhere
  | cons step rest ih =>
      obtain ⟨noSlash, noSlashes⟩ := List.forall_mem_cons.mp noSlash
      exact ih noSlashes (text_join_ne_empty noSlash somewhere)

theorem slashed_ne_empty (somewhere : path.text ≠ "") : path.slashed.text ≠ "" :=
  text_join_ne_empty (by simp) somewhere

/-- Two spellings of a path of which the first one can be looked at whenever the second one can,
also with the same steps behind both. -/
structure Trims (short long : Path) : Prop where
  sameWay : SameWay short long
  noNul : '\x00' ∈ short.text.toList → '\x00' ∈ long.text.toList
  size : short.text.utf8ByteSize ≤ long.text.utf8ByteSize
  slashed : short.slashed.text.utf8ByteSize ≤ long.slashed.text.utf8ByteSize

theorem Trims.refl (path : Path) : Trims path path :=
  ⟨.refl path, id, le_rfl, le_rfl⟩

theorem Trims.trans (first : Trims left middle) (second : Trims middle right) :
    Trims left right :=
  ⟨first.sameWay.trans second.sameWay, second.noNul ∘ first.noNul,
    first.size.trans second.size, first.slashed.trans second.slashed⟩

theorem slashed_append_slash (directory name : String) :
    (Path.mk (directory ++ "/" ++ name)).slashed.text =
      directory ++ "/" ++ (Path.mk name).slashed.text := by
  rw [text_slashed, text_slashed]
  by_cases empty : name = ""
  · simp [empty]
  · have nonempty : name.toList ≠ [] := fun nothing => empty (String.toList_eq_nil_iff.mp nothing)
    have last : (directory ++ "/" ++ name).toList.getLast? = name.toList.getLast? := by
      rw [String.toList_append, List.getLast?_append_of_ne_nil _ nonempty]
    by_cases ended : name.toList.getLast? = some '/'
    · rw [if_pos (.inr (last.trans ended)), if_pos (.inr ended), String.append_assoc]
    · have whole : directory ++ "/" ++ name ≠ "" := by
        intro nowhere
        rw [nowhere] at last
        exact nonempty (List.getLast?_eq_none_iff.mp last.symm)
      rw [if_neg (not_or.mpr ⟨whole, last ▸ ended⟩), if_neg (not_or.mpr ⟨empty, ended⟩)]
      simp only [String.append_assoc]

@[simp] theorem slashed_slashed (path : Path) : path.slashed.slashed.text = path.slashed.text := by
  rcases path.slashed_cases with nowhere | ⟨directory, ended⟩
  · rw [show path.slashed = ⟨""⟩ from congrArg Path.mk nowhere]
    rfl
  · have whole : path.slashed = ⟨directory ++ "/" ++ ""⟩ := by
      rw [String.append_empty, ← ended]
    rw [whole, slashed_append_slash]
    rfl

theorem slashed_join (noSlash : '/' ∉ step.toList) (path : Path) :
    (path.join ⟨step⟩).slashed.text =
      if step = "" then path.slashed.text else path.slashed.text ++ step ++ "/" := by
  split
  · rename_i empty
    rw [empty]
    exact path.slashed_slashed
  · rename_i named
    rw [slashed_of_unslashed (unslashed_join_of_not_mem named noSlash path),
      text_join_eq (not_isAbsolute_of_not_mem noSlash)]

theorem mem_slashed_iff {c : Char} (other : c ≠ '/') (path : Path) :
    c ∈ path.slashed.text.toList ↔ c ∈ path.text.toList := by
  rw [text_slashed]
  split
  · rfl
  · simp [other]

theorem Trims.join (trims : Trims left right) (noSlash : '/' ∉ step.toList) :
    Trims (left.join ⟨step⟩) (right.join ⟨step⟩) := by
  have relative := not_isAbsolute_of_not_mem noSlash
  have shorter := trims.slashed
  refine ⟨trims.sameWay.join noSlash, ?_, ?_, ?_⟩
  · have inside := mem_slashed_iff (show '\x00' ≠ '/' by decide)
    simp only [text_join_eq relative, String.toList_append, List.mem_append, inside]
    exact Or.imp_left trims.noNul
  · simp only [text_join_eq relative, String.utf8ByteSize_append]
    omega
  · rw [slashed_join noSlash, slashed_join noSlash]
    split
    · exact shorter
    · simp only [String.utf8ByteSize_append]
      omega

theorem Trims.joinAll (trims : Trims left right) (noSlash : ∀ step ∈ steps, '/' ∉ step.toList) :
    Trims (left.joinAll steps) (right.joinAll steps) := by
  induction steps generalizing left right with
  | nil => exact trims
  | cons step rest ih =>
      obtain ⟨noSlash, noSlashes⟩ := List.forall_mem_cons.mp noSlash
      exact ih (trims.join noSlash) noSlashes

theorem names_append_slash (directory name : String) :
    (Path.mk (directory ++ "/" ++ name)).names =
      (Path.mk directory).names ++ (Path.mk name).names := by
  have whole : (directory ++ "/" ++ name).toList = directory.toList ++ '/' :: name.toList := by
    simp
  simp only [names, FileTree.pieces, whole, split_append_slash, List.filter_append, List.map_append]

theorem isAbsolute_append_slash (directory name : String) :
    (Path.mk (directory ++ "/" ++ name)).isAbsolute =
      (Path.mk (directory ++ "/")).isAbsolute := by
  cases text : directory.toList with
  | nil => simp [isAbsolute, text]
  | cons c rest => simp [isAbsolute, text]

/-- A slash behind a slash makes a path longer. -/
theorem trims_double_slash (directory name : String) :
    Trims ⟨directory ++ "/" ++ name⟩ ⟨directory ++ "/" ++ "/" ++ name⟩ := by
  refine ⟨⟨?_, ?_⟩, ?_, ?_, ?_⟩
  · rw [isAbsolute_append_slash, isAbsolute_append_slash (directory ++ "/"),
      isAbsolute_append_slash]
  · have nothing : (Path.mk "").names = [] := rfl
    rw [names_append_slash, names_append_slash (directory ++ "/"),
      ← String.append_empty (s := directory ++ "/"), names_append_slash, nothing, List.append_nil]
  · simp
  · simp only [String.utf8ByteSize_append]
    omega
  · rw [slashed_append_slash, slashed_append_slash]
    simp only [String.utf8ByteSize_append]
    omega

/-- A slash at the end makes a path longer. -/
theorem trims_slash (somewhere : path.text ≠ "") : Trims path ⟨path.text ++ "/"⟩ := by
  have whole : path.text ++ "/" = path.text ++ "/" ++ "" := String.append_empty.symm
  refine ⟨⟨?_, ?_⟩, ?_, ?_, ?_⟩
  · cases text : path.text.toList with
    | nil => exact absurd (String.toList_eq_nil_iff.mp text) somewhere
    | cons c rest => simp [isAbsolute, text]
  · rw [whole, names_append_slash]
    exact (List.append_nil _).symm
  · simp
  · simp only [String.utf8ByteSize_append]
    omega
  · refine le_trans ?_ (size_le_slashed ⟨path.text ++ "/"⟩)
    rw [text_slashed]
    split
    · rw [String.utf8ByteSize_append]
      exact Nat.le_add_right ..
    · exact le_rfl

theorem trims_slashed (somewhere : path.text ≠ "") : Trims path path.slashed := by
  by_cases ended : path.text.toList.getLast? = some '/'
  · rw [slashed_of_ended (.inr ended)]
    exact .refl path
  · rw [show path.slashed = ⟨path.text ++ "/"⟩ from
      congrArg Path.mk (slashed_of_unslashed ⟨somewhere, ended⟩)]
    exact trims_slash somewhere

/-- One behind the other, the texts between the slashes of a text are a short spelling of it. -/
theorem trims_joinAll_split {text : List Char} {pieces : List (List Char)}
    (divided : split text = pieces) (apart : path.text ≠ "" ∨ text.head? ≠ some '/') :
    Trims (path.joinAll (pieces.map String.ofList))
      ⟨path.slashed.text ++ String.ofList text⟩ := by
  induction pieces generalizing text path with
  | nil => exact absurd divided (split_ne_nil text)
  | cons piece others ih =>
      by_cases slash : '/' ∈ text
      · obtain ⟨front, back, rfl, noSlash⟩ := List.eq_append_cons_of_mem slash
        rw [split_append_slash, split_of_not_mem noSlash, List.singleton_append] at divided
        obtain ⟨rfl, rfl⟩ := List.cons.inj divided
        have noSlashName : '/' ∉ (String.ofList front).toList := by rwa [String.toList_ofList]
        have joined := slashed_join noSlashName path
        by_cases empty : front = []
        · subst empty
          have somewhere : path.text ≠ "" := apart.resolve_right (by simp)
          have further := ih rfl (.inl (text_join_ne_empty noSlashName somewhere))
          obtain ⟨directory, ended⟩ := path.slashed_cases.resolve_left (slashed_ne_empty somewhere)
          refine further.trans ?_
          have whole : path.slashed.text ++ String.ofList ([] ++ '/' :: back) =
              directory ++ "/" ++ "/" ++ String.ofList back := by
            rw [ended, ← String.toList_inj]
            simp
          rw [joined, if_pos rfl, whole, ended]
          exact trims_double_slash ..
        · have named : String.ofList front ≠ "" := by simpa using empty
          have somewhere : (path.join ⟨String.ofList front⟩).text ≠ "" :=
            (unslashed_join_of_not_mem named noSlashName path).somewhere
          have further := ih rfl (.inl somewhere)
          have whole : path.slashed.text ++ String.ofList (front ++ '/' :: back) =
              path.slashed.text ++ String.ofList front ++ "/" ++ String.ofList back := by
            rw [← String.toList_inj]
            simp
          rwa [joined, if_neg named, ← whole] at further
      · rw [split_of_not_mem slash] at divided
        obtain ⟨rfl, rfl⟩ := List.cons.inj divided
        have relative : (Path.mk (String.ofList text)).isAbsolute = false :=
          not_isAbsolute_of_not_mem (by rwa [String.toList_ofList])
        rw [← text_join_eq relative]
        exact .refl _

end Path

namespace FileTree

open Phrasebook.Path

variable {tree : FileTree} {path short long left right : Path} {step name : String}
variable {steps location : List String} {entries : List (String × Entry)}

theorem Opens.of_sameWay (opens : Opens tree left location entries) (same : SameWay left right)
    (sound : Sound right) : Opens tree right location entries := by
  refine ⟨sound, ?_, opens.there⟩
  have origin : tree.origin right = tree.origin left := by rw [origin, origin, same.absolute]
  rw [origin, ← resolveFrom_iff_of_shortens (shortens_filter _) opens.there]
  have leads := (resolveFrom_iff_of_shortens (shortens_filter _) opens.there).mpr opens.leads
  rwa [show (pieces left.text).filter (· ≠ ".") = (pieces right.text).filter (· ≠ ".") from
    same.names] at leads

/-- Two paths with the same names that lead to directories lead to the same one. -/
theorem sameNode_of_sameWay (same : SameWay left right) (isDir : tree.isDir left = true)
    (isDir' : tree.isDir right = true) : tree.sameNode left right = true := by
  obtain ⟨location, entries, opens⟩ := isDir_iff_opens.mp isDir
  obtain ⟨_, _, opens'⟩ := isDir_iff_opens.mp isDir'
  exact sameNode_iff.mpr ⟨location, opens.resolve, (opens.of_sameWay same opens'.sound).resolve⟩

theorem isDir_of_trims (trims : Trims short long) (somewhere : short.text ≠ "")
    (isDir : tree.isDir long = true) : tree.isDir short = true := by
  obtain ⟨location, entries, opens⟩ := isDir_iff_opens.mp isDir
  have sound : Sound short :=
    ⟨opens.sound.noNul ∘ trims.noNul, somewhere, trims.size.trans_lt opens.sound.short⟩
  exact (opens.of_sameWay trims.sameWay.symm sound).isDir

/-- Where a relative path leads to a directory, there is one at hand. -/
theorem isDir_here (relative : path.isAbsolute = false) (isDir : tree.isDir path = true) :
    tree.isDir ⟨"."⟩ = true := by
  obtain ⟨location, entries, opens⟩ := isDir_iff_opens.mp isDir
  have leads := opens.leads
  obtain ⟨first, rest, some⟩ :=
    List.exists_cons_of_ne_nil (pieces_ne_nil relative opens.sound.somewhere)
  obtain ⟨onLink, walks⟩ := resolveFrom_eq_walk tree true linkLimit
  have origin : ∀ path : Path, path.isAbsolute = false → tree.origin path = tree.here := by
    intro path relative
    rw [FileTree.origin, relative, if_neg Bool.false_ne_true]
  rw [origin path relative, some, walks] at leads
  obtain ⟨others, there⟩ := exists_dir_of_walk leads
  have sound : Sound ⟨"."⟩ := ⟨by decide, by decide, by decide⟩
  refine Opens.isDir ⟨sound, ?_, there⟩
  rw [origin ⟨"."⟩ rfl]
  exact resolveFrom_of_on (move_here (.inr rfl) there)

section
variable (noSlash : '/' ∉ step.toList)
include noSlash

theorem sound_of_step (somewhere : path.text ≠ "") (sound : Sound (path.join ⟨step⟩)) :
    Sound path := by
  have text := text_join_eq (not_isAbsolute_of_not_mem noSlash) path
  refine ⟨?_, somewhere, ?_⟩
  · have noNul := sound.noNul
    rw [text, String.toList_append, List.mem_append, not_or, mem_slashed_iff (by decide)] at noNul
    exact noNul.1
  · have short := sound.short
    rw [text, String.utf8ByteSize_append] at short
    have size := size_le_slashed path
    omega

/-- What stands in front of a step to a directory is a directory. -/
theorem isDir_of_step (somewhere : path.text ≠ "")
    (isDir : tree.isDir (path.join ⟨step⟩) = true) : tree.isDir path = true := by
  obtain ⟨location, entries, opens⟩ := isDir_iff_opens.mp isDir
  have relative := not_isAbsolute_of_not_mem noSlash
  have sound := sound_of_step noSlash somewhere opens.sound
  have leads := opens.leads
  have origin : tree.origin (path.join ⟨step⟩) = tree.origin path := by
    rw [FileTree.origin, FileTree.origin, isAbsolute_join relative]
  rw [origin, pieces_join relative, pieces_of_not_mem noSlash] at leads
  by_cases empty : step = ""
  · rw [if_pos empty, List.append_nil] at leads
    exact Opens.isDir ⟨sound, leads, opens.there⟩
  · rw [if_neg empty] at leads
    obtain ⟨above, taken⟩ := taken_of_resolveFrom empty leads
    obtain ⟨left, onward⟩ := resolveFrom_append true taken
    rw [onward] at leads
    obtain ⟨_, others, there⟩ := dir_of_resolveFrom leads
    exact Opens.isDir ⟨sound, taken, there⟩

end

theorem isDir_of_steps (somewhere : path.text ≠ "") (noSlash : ∀ step ∈ steps, '/' ∉ step.toList)
    (isDir : tree.isDir (path.joinAll steps) = true) : tree.isDir path = true := by
  induction steps generalizing path with
  | nil => exact isDir
  | cons step rest ih =>
      obtain ⟨noSlash, noSlashes⟩ := List.forall_mem_cons.mp noSlash
      exact isDir_of_step noSlash somewhere
        (ih (text_join_ne_empty noSlash somewhere) noSlashes isDir)

/-- A directory lists the names that lead from it to directories. -/
theorem exists_mem_names (plain : Plain name.toList) (somewhere : path.text ≠ "")
    (isDir : tree.isDir (path.join ⟨name⟩) = true) :
    ∃ names, tree.names path = .ok names ∧ name ∈ names := by
  obtain ⟨entries, leads⟩ := isDir_iff.mp isDir
  obtain ⟨location, resolved, there⟩ := entry_eq_ok_iff.mp leads
  obtain ⟨sound, short, above, others, opens⟩ := opens_of_resolve plain somewhere resolved
  refine ⟨_, opens.names, ?_⟩
  by_contra absent
  rw [← Table.get?_isSome_iff, Bool.not_eq_true, Option.isSome_eq_false_iff,
    Option.isNone_iff_eq_none] at absent
  rw [resolve_of_none plain opens sound short absent] at resolved
  cases resolved

end FileTree
end Phrasebook
