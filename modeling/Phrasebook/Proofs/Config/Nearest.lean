import Phrasebook.Config.File
import Phrasebook.Proofs.FileTree.Ancestors

/-!
# The nearest configuration file

The search for a configuration goes upwards by the text of the directory's path.  The directories it
looks into are those to which the names of the path lead from where it starts, the last ones left
out one by one.  These are the directory and those above it if the path has no `..` and no link
among its names, and they end where a relative path starts.
-/

namespace Phrasebook

namespace FileTree

open Phrasebook.Path

variable {tree : FileTree} {path dir start : Path} {location steps names : List String}
variable {entries : List (String × Entry)} {step name : String} {links : Nat} {spot : Spot}

theorem exists_dir_of_at?_append {front back : List String}
    (there : tree.root.at? (front ++ back) = some (.dir entries)) :
    ∃ others, tree.root.at? front = some (.dir others) := by
  rw [Entry.at?_append] at there
  obtain ⟨entry, found, below⟩ := Option.bind_eq_some_iff.mp there
  cases back with
  | nil =>
      cases below
      exact ⟨entries, found⟩
  | cons step rest =>
      cases entry with
      | dir others => exact ⟨others, found⟩
      | _ => cases below

/-- The steps of a way to a directory lead from directory to directory. -/
theorem exists_dir_of_cons
    (there : tree.root.at? (location ++ (step :: steps).filter (· ≠ ".")) = some (.dir entries)) :
    (∃ others, tree.root.at? (location ++ [step].filter (· ≠ ".")) = some (.dir others)) ∧
      location ++ (step :: steps).filter (· ≠ ".") =
        location ++ [step].filter (· ≠ ".") ++ steps.filter (· ≠ ".") := by
  have parts : location ++ (step :: steps).filter (· ≠ ".") =
      location ++ [step].filter (· ≠ ".") ++ steps.filter (· ≠ ".") := by
    rw [← List.singleton_append, List.filter_append, List.append_assoc]
  rw [parts] at there
  exact ⟨exists_dir_of_at?_append there, parts⟩

/-- Whether steps are names downwards, each short enough, and points. -/
structure Downwards (steps : List String) : Prop where
  named : "" ∉ steps
  notUp : ".." ∉ steps
  short : ∀ step ∈ steps, step.utf8ByteSize ≤ 255

theorem Downwards.tail (downwards : Downwards (step :: steps)) : Downwards steps where
  named := fun member => downwards.named (List.mem_cons_of_mem _ member)
  notUp := fun member => downwards.notUp (List.mem_cons_of_mem _ member)
  short := fun step member => downwards.short step (List.mem_cons_of_mem _ member)

/-- A name of a directory is a step into it. -/
theorem move_downwards (named : step ≠ "") (notUp : step ≠ "..")
    (short : step.utf8ByteSize ≤ 255)
    (there : tree.root.at? (location ++ [step].filter (· ≠ ".")) = some (.dir entries)) :
    tree.move location step = .on (location ++ [step].filter (· ≠ ".")) := by
  by_cases here : step = "."
  · subst here
    rw [List.filter_cons_of_neg (by simp), List.filter_nil, List.append_nil] at there ⊢
    exact move_here (.inr rfl) there
  · rw [List.filter_cons_of_pos (by simpa using here), List.filter_nil] at there ⊢
    obtain ⟨others, above⟩ := exists_dir_of_at?_append there
    rw [Entry.at?_append_singleton above] at there
    rw [move, if_neg (Nat.not_lt.mpr short), above]
    simp only [if_neg (not_or.mpr ⟨named, here⟩), if_neg notUp, there]

theorem resolveFrom_cons_of_on {next : List String} (moved : tree.move location step = .on next) :
    tree.resolveFrom true links location (step :: steps) =
      tree.resolveFrom true links next steps := by
  obtain ⟨onLink, equal⟩ := resolveFrom_eq_walk tree true links
  rw [equal, walk_cons, moved]

/-- Without links, names downwards lead where they say. -/
theorem resolveFrom_downwards (downwards : Downwards steps)
    (there : tree.root.at? (location ++ steps.filter (· ≠ ".")) = some (.dir entries))
    (rest : List String) :
    tree.resolveFrom true links location (steps ++ rest) =
      tree.resolveFrom true links (location ++ steps.filter (· ≠ ".")) rest := by
  induction steps generalizing location with
  | nil => simp
  | cons step steps ih =>
      obtain ⟨⟨others, next⟩, parts⟩ := exists_dir_of_cons there
      rw [parts] at there ⊢
      obtain ⟨named, _⟩ := not_or.mp (mt List.mem_cons.mpr downwards.named)
      obtain ⟨notUp, _⟩ := not_or.mp (mt List.mem_cons.mpr downwards.notUp)
      have moved := move_downwards (Ne.symm named) (Ne.symm notUp)
        (downwards.short step (List.mem_cons_self ..)) next
      rw [List.cons_append, resolveFrom_cons_of_on moved, ih downwards.tail there]

/-- Steps that lead somewhere without links have short names. -/
theorem downwards_of_resolveFrom (named : "" ∉ steps) (notUp : ".." ∉ steps)
    (there : tree.root.at? (location ++ steps.filter (· ≠ ".")) = some (.dir entries))
    (leads : tree.resolveFrom true links location steps = .ok spot) : Downwards steps := by
  induction steps generalizing location with
  | nil => exact ⟨named, notUp, by simp⟩
  | cons step steps ih =>
      obtain ⟨⟨others, next⟩, parts⟩ := exists_dir_of_cons there
      rw [parts] at there
      obtain ⟨first, named'⟩ := not_or.mp (mt List.mem_cons.mpr named)
      obtain ⟨first', notUp'⟩ := not_or.mp (mt List.mem_cons.mpr notUp)
      have short : step.utf8ByteSize ≤ 255 := by
        by_contra long
        obtain ⟨onLink, equal⟩ := resolveFrom_eq_walk tree true links
        rw [equal, walk_cons, move, if_pos (Nat.not_le.mp long)] at leads
        cases leads
      rw [resolveFrom_cons_of_on (move_downwards (Ne.symm first) (Ne.symm first') short next)]
        at leads
      have rest := ih named' notUp' there leads
      exact ⟨named, notUp, List.forall_mem_cons.mpr ⟨short, rest.short⟩⟩

/-- A way to a directory leads over directories, also through links. -/
theorem exists_dir_of_prefix {front back : List String} (named : "" ∉ back)
    (leads : tree.resolveFrom true links location (front ++ back) = .ok (.taken names))
    (there : tree.root.at? names = some (.dir entries)) :
    ∃ above others, tree.resolveFrom true links location front = .ok (.taken above) ∧
      tree.root.at? above = some (.dir others) := by
  induction back using List.reverseRecOn generalizing names entries with
  | nil =>
      rw [List.append_nil] at leads
      exact ⟨names, entries, leads, there⟩
  | append_singleton back step ih =>
      rw [List.mem_append, not_or] at named
      have some : step ≠ "" := by
        rintro rfl
        exact named.2 (List.mem_singleton_self _)
      rw [← List.append_assoc] at leads
      obtain ⟨above, taken⟩ := taken_of_resolveFrom some leads
      obtain ⟨left, onward⟩ := resolveFrom_append true taken
      rw [onward] at leads
      obtain ⟨_, others, dir⟩ := dir_of_resolveFrom leads
      exact ih named.1 taken dir

/-! ## Entries of ancestors -/

/-- Whether a name leads to something from a directory, be it through links. -/
def HasEntry (tree : FileTree) (directory : List String) (name : String) : Prop :=
  ∃ location entry, tree.resolveFrom true linkLimit directory [name] = .ok (.taken location) ∧
    tree.root.at? location = some entry

/-- The text of a path, with a slash behind it if it needs one, is longer than that of what is cut
from it. -/
theorem size_slashed_le (begins : dir = start ∨ dir.text.toList <+: start.text.toList ∧
    dir.text.toList.length < start.text.toList.length) :
    dir.slashed.text.utf8ByteSize ≤ start.slashed.text.utf8ByteSize := by
  rcases begins with rfl | ⟨⟨back, whole⟩, shorter⟩
  · exact Nat.le_refl _
  · have text : start.text = dir.text ++ String.ofList back := by
      rw [← String.toList_inj, ← whole]
      simp
    have more : 0 < (String.ofList back).utf8ByteSize := by
      rw [Nat.pos_iff_ne_zero, Ne, String.utf8ByteSize_eq_zero_iff]
      intro nothing
      obtain rfl : back = [] := by simpa using nothing
      simp [← whole] at shorter
    have whole := size_le_slashed start
    rw [text, String.utf8ByteSize_append] at whole
    have slash : dir.slashed.text.utf8ByteSize ≤ dir.text.utf8ByteSize + 1 := by
      rw [text_slashed]
      split
      · exact Nat.le_succ _
      · rw [String.utf8ByteSize_append]
        exact Nat.le_refl _
    omega

/-- A short name can be looked for in each directory above one in which the longest one can. -/
theorem sound_join_of_prefix (plain : Plain name.toList) (noNul : '\x00' ∉ name.toList)
    (startNoNul : '\x00' ∉ start.text.toList)
    (begins : dir = start ∨ dir.text.toList <+: start.text.toList ∧
      dir.text.toList.length < start.text.toList.length)
    (short : start.slashed.text.utf8ByteSize + name.utf8ByteSize < 4096) :
    Sound (dir.join ⟨name⟩) := by
  have text := text_join_eq (not_isAbsolute_of_plain plain) dir
  have inside : dir.text.toList <+: start.text.toList := by
    rcases begins with rfl | ⟨inside, _⟩
    · exact List.prefix_rfl
    · exact inside
  refine ⟨?_, ?_, ?_⟩
  · rw [text, String.toList_append, List.mem_append, mem_slashed_iff (by decide), not_or]
    exact ⟨fun member => startNoNul (inside.subset member), noNul⟩
  · exact (unslashed_join plain dir).somewhere
  · rw [text, String.utf8ByteSize_append]
    have le := size_slashed_le begins
    omega

theorem pathExists_join_iff (plain : Plain name.toList) (sound : Sound (dir.join ⟨name⟩))
    (downwards : Downwards (pieces dir.text))
    (there : tree.root.at? (tree.origin dir ++ dir.names) = some (.dir entries)) :
    tree.resolve (dir.join ⟨name⟩) true =
        tree.resolveFrom true linkLimit (tree.origin dir ++ dir.names) [name] ∧
      (tree.pathExists (dir.join ⟨name⟩) = true ↔
        tree.HasEntry (tree.origin dir ++ dir.names) name) := by
  have same := (resolve_join plain sound true).trans
    (resolveFrom_downwards downwards there [name])
  refine ⟨same, ?_⟩
  rw [pathExists_iff]
  simp only [entry_eq_ok_iff, same]
  exact exists_comm

end FileTree

namespace Config

open Phrasebook.Path FileTree

section
variable {α : Type} {found stopped : α → Prop} {list more : List α} {first : α}

/-- Whether an element is what a search through a list finds: none before it is one, and none
before it ends the search. -/
def IsFirst (found stopped : α → Prop) (list : List α) (first : α) : Prop :=
  ∃ before after, list = before ++ first :: after ∧ found first ∧
    ∀ other ∈ before, ¬ found other ∧ ¬ stopped other

theorem isFirst_cons_iff {head : α} {tail : List α} :
    IsFirst found stopped (head :: tail) first ↔
      head = first ∧ found first ∨ ¬ found head ∧ ¬ stopped head ∧
        IsFirst found stopped tail first := by
  constructor
  · rintro ⟨before, after, parts, here, notBefore⟩
    cases before with
    | nil =>
        cases parts
        exact .inl ⟨rfl, here⟩
    | cons other before =>
        cases parts
        obtain ⟨notHead, others⟩ := List.forall_mem_cons.mp notBefore
        exact .inr ⟨notHead.1, notHead.2, before, after, rfl, here, others⟩
  · rintro (⟨rfl, here⟩ | ⟨notFound, notStopped, before, after, rfl, here, others⟩)
    · exact ⟨[], tail, rfl, here, by simp⟩
    · exact ⟨head :: before, after, rfl, here, List.forall_mem_cons.mpr
        ⟨⟨notFound, notStopped⟩, others⟩⟩

/-- Looking once more at what was looked at before finds nothing more. -/
theorem isFirst_append_iff (again : ∀ other ∈ more, other ∈ list) :
    IsFirst found stopped (list ++ more) first ↔ IsFirst found stopped list first := by
  constructor
  · rintro ⟨before, after, parts, here, notBefore⟩
    rcases List.append_eq_append_iff.mp parts with ⟨between, rfl, rest⟩ | ⟨between, rfl, rest⟩
    · have member : first ∈ list := again first (by rw [rest]; simp)
      exact absurd here (notBefore first (List.mem_append_left _ member)).1
    · cases between with
      | nil =>
          have inMore : first ∈ more := by
            rw [List.nil_append] at rest
            exact rest ▸ List.mem_cons_self
          have member : first ∈ before := by simpa using again first inMore
          exact absurd here (notBefore first member).1
      | cons head between =>
          cases rest
          exact ⟨before, between, rfl, here, notBefore⟩
  · rintro ⟨before, after, rfl, here, notBefore⟩
    exact ⟨before, after ++ more, by simp, here, notBefore⟩

end

variable {tree : FileTree} {start : Path} {dirs : List Path}

/-- The search finds the first directory with a configuration file before any under version
control. -/
theorem findIn_spec (found stopped : List String → Prop) (place : Path → List String)
    (looks : ∀ dir ∈ dirs,
      (tree.pathExists (dir.join ⟨fileName⟩) = true ↔ found (place dir)) ∧
        (tree.pathExists (dir.join ⟨".git"⟩) = true ↔ stopped (place dir))) :
    (∀ first, IsFirst found stopped (dirs.map place) first →
      ∃ dir ∈ dirs, place dir = first ∧ findIn tree dirs = some (dir.join ⟨fileName⟩)) ∧
    ((∀ first, ¬ IsFirst found stopped (dirs.map place) first) → findIn tree dirs = none) := by
  induction dirs with
  | nil => exact ⟨by simp [IsFirst], fun _ => rfl⟩
  | cons dir above ih =>
      obtain ⟨⟨config, git⟩, looks⟩ := List.forall_mem_cons.mp looks
      obtain ⟨finds, fails⟩ := ih looks
      simp only [List.map_cons, isFirst_cons_iff, findIn]
      by_cases here : found (place dir)
      · rw [if_pos (config.mpr here)]
        refine ⟨?_, fun none => absurd (.inl ⟨rfl, here⟩) (none (place dir))⟩
        rintro first (⟨equal, _⟩ | ⟨notHere, _⟩)
        · exact ⟨dir, List.mem_cons_self, equal, rfl⟩
        · exact absurd here notHere
      · rw [if_neg (mt config.mp here)]
        by_cases ends : stopped (place dir)
        · rw [if_pos (git.mpr ends)]
          refine ⟨?_, fun _ => rfl⟩
          rintro first (⟨rfl, here'⟩ | ⟨_, notEnds, _⟩)
          · exact absurd here' here
          · exact absurd ends notEnds
        · rw [if_neg (mt git.mp ends)]
          refine ⟨?_, fun none => fails fun first later => none first (.inr ⟨here, ends, later⟩)⟩
          rintro first (⟨rfl, here'⟩ | ⟨_, _, later⟩)
          · exact absurd here' here
          · obtain ⟨other, member, equal, result⟩ := finds first later
            exact ⟨other, List.mem_cons_of_mem _ member, equal, result⟩

/-- The loop that looks for a configuration goes on with the parent, and ends. -/
theorem find?_eq (tree : FileTree) (start : Path) :
    find? tree start =
      if tree.pathExists (start.join ⟨fileName⟩) then some (start.join ⟨fileName⟩)
      else if tree.pathExists (start.join ⟨".git"⟩) then none
      else start.parent?.bind (find? tree) := by
  rw [find?, ancestors_eq, findIn]
  cases start.parent? with
  | none => rfl
  | some above => rfl

/-! ## The directories that are looked into -/

/-- The directories from one up to another one, from which names lead to it, the nearest first. -/
def upwards (origin names : List String) : List (List String) :=
  names.inits.reverse.map (origin ++ ·)

theorem upwards_append_singleton (origin names : List String) (name : String) :
    upwards origin (names ++ [name]) = (origin ++ (names ++ [name])) :: upwards origin names := by
  simp [upwards, List.inits_append]

/-- A directory and all those above it are those up to another one, and those above that. -/
theorem upwards_prefix (origin names : List String) :
    upwards origin names <+: upwards [] (origin ++ names) := by
  induction names using List.reverseRecOn with
  | nil =>
      rw [List.append_nil]
      rcases List.eq_nil_or_concat origin with rfl | ⟨front, name, rfl⟩
      · exact List.prefix_rfl
      · have one : upwards (front ++ [name]) [] = [front ++ [name]] := by simp [upwards]
        rw [List.concat_eq_append, upwards_append_singleton, one]
        exact ⟨_, rfl⟩
  | append_singleton front name ih =>
      rw [← List.append_assoc, upwards_append_singleton, upwards_append_singleton, List.nil_append,
        List.append_assoc]
      exact List.cons_prefix_cons.mpr ⟨rfl, ih⟩

theorem getLast?_upwards (origin names : List String) :
    (upwards origin names).getLast? = some origin := by
  induction names using List.reverseRecOn with
  | nil => simp [upwards]
  | append_singleton front name ih =>
      rw [upwards_append_singleton, List.getLast?_cons, ih]
      rfl

/-- What is known of an ancestor of a directory. -/
structure IsAbove (start dir : Path) : Prop where
  origin : dir.isAbsolute = start.isAbsolute
  begins : dir = start ∨ dir.text.toList <+: start.text.toList ∧
    dir.text.toList.length < start.text.toList.length
  names : dir.names <+: start.names

theorem isAbove_of_mem_ancestors : ∀ dir ∈ start.ancestors, IsAbove start dir := by
  have names : ∀ dir ∈ start.ancestors, dir.names <+: start.names := by
    intro dir member
    have listed := List.mem_map_of_mem (f := Path.names) member
    rw [map_names_ancestors, List.mem_append, List.mem_reverse, List.mem_inits] at listed
    rcases listed with begins | again
    · exact begins
    · split at again
      · rw [List.mem_singleton.mp again]
        exact List.nil_prefix
      · cases again
  have rest : ∀ dir ∈ start.ancestors, dir.isAbsolute = start.isAbsolute ∧
      (dir = start ∨ dir.text.toList <+: start.text.toList ∧
        dir.text.toList.length < start.text.toList.length) := by
    apply forall_mem_ancestors
    · exact ⟨rfl, .inl rfl⟩
    · rintro lower above ⟨absolute, begins⟩ parent
      obtain ⟨begins', shorter⟩ := length_lt_of_parent? parent
      refine ⟨(isAbsolute_of_parent? parent).trans absolute, .inr ?_⟩
      rcases begins with rfl | ⟨begins, shorter'⟩
      · exact ⟨begins', shorter⟩
      · exact ⟨begins'.trans begins, Nat.lt_trans shorter shorter'⟩
  intro dir member
  exact ⟨(rest dir member).1, (rest dir member).2, names dir member⟩

/-- The names of each path above a directory lead to a directory. -/
theorem exists_dir_of_mem_ancestors (isDir : tree.isDir start = true) :
    ∀ dir ∈ start.ancestors, ∃ location entries,
      tree.resolveFrom true linkLimit (tree.origin start) dir.names = .ok (.taken location) ∧
        tree.root.at? location = some (.dir entries) := by
  intro dir member
  obtain ⟨location, entries, opens⟩ := isDir_iff_opens.mp isDir
  have leads : tree.resolveFrom true linkLimit (tree.origin start) start.names =
      .ok (.taken location) :=
    (resolveFrom_iff_of_shortens (shortens_filter _) opens.there).mpr opens.leads
  obtain ⟨rest, names⟩ := (isAbove_of_mem_ancestors dir member).names
  rw [← names] at leads
  apply exists_dir_of_prefix _ leads opens.there
  intro member
  have listed : "" ∈ start.names := names ▸ List.mem_append_right _ member
  exact ne_empty_of_mem_pieces (List.mem_of_mem_filter listed) rfl

theorem plain_fileName : Plain fileName.toList := by
  constructor <;> decide

theorem plain_git : Plain ".git".toList := by
  constructor <;> decide

/-- The places of the ancestors are the directories upwards, the last of them perhaps twice. -/
theorem isFirst_ancestors_iff {found stopped : List String → Prop} {origin first : List String} :
    IsFirst found stopped (start.ancestors.map (origin ++ ·.names)) first ↔
      IsFirst found stopped (upwards origin start.names) first := by
  have places : start.ancestors.map (origin ++ ·.names) = upwards origin start.names ++
      (if start.opening = some .here then [[]] else []).map (origin ++ ·) := by
    rw [upwards, ← List.map_append, ← map_names_ancestors, List.map_map]
    rfl
  rw [places]
  apply isFirst_append_iff
  intro other again
  split at again
  · rw [List.mem_singleton.mp again]
    exact List.mem_of_getLast? (by simpa using getLast?_upwards origin start.names)
  · cases again

section
variable {entries : List (String × Entry)} (isDir : tree.isDir start = true)
  (notUp : Part.up ∉ start.parts) (there : tree.root.at? (tree.place start) = some (.dir entries))
include isDir notUp there

/-- The names of a directory without links on its way are short, and it is where they say. -/
theorem downwards_of_isDir :
    Downwards (pieces start.text) ∧ tree.resolve start true = .ok (.taken (tree.place start)) := by
  obtain ⟨location, others, opens⟩ := isDir_iff_opens.mp isDir
  rw [place_eq notUp] at there ⊢
  have noUp : ".." ∉ pieces start.text := fun member =>
    notUp (up_mem_parts_iff.mpr (List.mem_filter.mpr ⟨member, rfl⟩))
  have downwards := downwards_of_resolveFrom (fun member => ne_empty_of_mem_pieces member rfl) noUp
    there opens.leads
  have straight : tree.resolveFrom true linkLimit (tree.origin start)
      (pieces start.text ++ []) = _ := resolveFrom_downwards downwards there []
  rw [List.append_nil, opens.leads] at straight
  obtain ⟨onLink, walks⟩ := resolveFrom_eq_walk tree true linkLimit
  rw [walks] at straight
  cases straight
  exact ⟨downwards, opens.resolve⟩

/-- What a path above a directory is looked for are entries of the directory to which its names
lead. -/
theorem resolve_above (short : (start.join ⟨fileName⟩).text.utf8ByteSize < 4096) {dir : Path}
    (above : IsAbove start dir) {name : String} (plain : Plain name.toList)
    (noNul : '\x00' ∉ name.toList) (shorter : name.utf8ByteSize ≤ fileName.utf8ByteSize) :
    tree.resolve (dir.join ⟨name⟩) true =
        tree.resolveFrom true linkLimit (tree.origin start ++ dir.names) [name] ∧
      (tree.pathExists (dir.join ⟨name⟩) = true ↔
        tree.HasEntry (tree.origin start ++ dir.names) name) := by
  obtain ⟨location, others, opens⟩ := isDir_iff_opens.mp isDir
  obtain ⟨downwards, _⟩ := downwards_of_isDir isDir notUp there
  have sound : Sound (dir.join ⟨name⟩) := by
    apply sound_join_of_prefix plain noNul opens.sound.noNul above.begins
    rw [text_join_eq (not_isAbsolute_of_plain plain_fileName), String.utf8ByteSize_append] at short
    omega
  have origin : tree.origin dir = tree.origin start := by
    rw [FileTree.origin, above.origin, FileTree.origin]
  have inside : ∀ step ∈ pieces dir.text, step = "." ∨ step ∈ pieces start.text := by
    intro step member
    by_cases here : step = "."
    · exact .inl here
    · have listed : step ∈ dir.names := List.mem_filter.mpr ⟨member, by simpa using here⟩
      exact .inr (List.mem_of_mem_filter (above.names.subset listed))
  have downwards' : Downwards (pieces dir.text) := by
    refine ⟨fun member => ne_empty_of_mem_pieces member rfl, ?_, ?_⟩
    · intro member
      exact (inside _ member).elim (by simp) downwards.notUp
    · intro step member
      rcases inside step member with rfl | member
      · decide
      · exact downwards.short step member
  obtain ⟨rest, names⟩ := above.names
  rw [place_eq notUp, ← names, ← List.append_assoc] at there
  obtain ⟨others, dirThere⟩ := exists_dir_of_at?_append there
  rw [← origin] at dirThere ⊢
  exact pathExists_join_iff plain sound downwards' dirThere

end

/-- For every directory the search is the loop over its path and the parents cut from its text, and
looks into the directories to which their names lead. For one to which names lead downwards and
without links, it finds the first configuration file above it, up to where its path begins, unless a
directory before is under version control. -/
theorem search_goes_up_by_names (tree : FileTree) (start : Path) :
    (find? tree start =
      if tree.pathExists (start.join ⟨fileName⟩) then some (start.join ⟨fileName⟩)
      else if tree.pathExists (start.join ⟨".git"⟩) then none
      else start.parent?.bind (find? tree)) ∧
    (find? tree start = findIn tree start.ancestors ∧
      (start.ancestors.map Path.names =
        start.names.inits.reverse ++ if start.opening = some .here then [[]] else []) ∧
      (tree.isDir start = true → ∀ dir ∈ start.ancestors, ∃ location entries,
        tree.resolveFrom true linkLimit (tree.origin start) dir.names = .ok (.taken location) ∧
          tree.root.at? location = some (.dir entries))) ∧
    ∀ entries, tree.isDir start = true → Part.up ∉ start.parts →
      tree.root.at? (tree.place start) = some (.dir entries) →
      (start.join ⟨fileName⟩).text.utf8ByteSize < 4096 →
      let origin := tree.origin start
      let chain := upwards origin start.names
      let nearest := IsFirst (tree.HasEntry · fileName) (tree.HasEntry · ".git") chain
      tree.resolve start true = .ok (.taken (tree.place start)) ∧
        (chain <+: upwards [] (tree.place start) ∧ chain.getLast? = some origin) ∧
        (∀ dir, nearest dir → ∃ file, find? tree start = some file ∧
          tree.resolve file true = tree.resolveFrom true linkLimit dir [fileName]) ∧
        ((∀ dir, ¬ nearest dir) → find? tree start = none) := by
  refine ⟨find?_eq tree start,
    ⟨rfl, map_names_ancestors start, exists_dir_of_mem_ancestors⟩, ?_⟩
  intro entries isDir notUp there short origin chain nearest
  have config := fun (dir : Path) (member : dir ∈ start.ancestors) =>
    resolve_above isDir notUp there short (isAbove_of_mem_ancestors dir member) plain_fileName
      (by decide) (Nat.le_refl _)
  have git := fun (dir : Path) (member : dir ∈ start.ancestors) =>
    resolve_above isDir notUp there short (isAbove_of_mem_ancestors dir member) plain_git
      (by decide) (by decide)
  obtain ⟨finds, fails⟩ := findIn_spec (tree.HasEntry · fileName) (tree.HasEntry · ".git")
    (fun dir => origin ++ dir.names) fun dir member => ⟨(config dir member).2, (git dir member).2⟩
  simp only [isFirst_ancestors_iff] at finds fails
  refine ⟨(downwards_of_isDir isDir notUp there).2, ⟨?_, getLast?_upwards ..⟩, ?_, fails⟩
  · rw [place_eq notUp]
    exact upwards_prefix ..
  · intro dir first
    obtain ⟨path, member, rfl, found⟩ := finds dir first
    exact ⟨_, found, (config path member).1⟩

/-- A directory with a configuration file and a directory in it, in which the program starts. -/
def configured : FileTree :=
  ⟨.dir [("w", .dir [(fileName, .file (.text "\x7b\x7d")), ("src", .dir [])])], ["w"]⟩

/-- From a directory named from the root the file in the one above it is found. -/
theorem configuration_above_is_found :
    ∃ file, find? configured ⟨"/w/src"⟩ = some file ∧
      configured.resolve file true = configured.resolveFrom true linkLimit ["w"] [fileName] := by
  obtain ⟨_, _, straight⟩ := search_goes_up_by_names configured ⟨"/w/src"⟩
  obtain ⟨_, _, finds, _⟩ := straight [] (by decide +kernel) (by decide +kernel) rfl (by decide)
  have fresh : configured.resolveFrom true linkLimit ["w", "src"] [fileName] =
      .ok (.free ["w", "src"] fileName false) := by decide +kernel
  have fresh' : configured.resolveFrom true linkLimit ["w", "src"] [".git"] =
      .ok (.free ["w", "src"] ".git" false) := by decide +kernel
  refine finds ["w"] ⟨[["w", "src"]], [[]], by decide +kernel, ?_, ?_⟩
  · exact ⟨["w", fileName], _, by decide +kernel, rfl⟩
  · intro other member
    rw [List.mem_singleton.mp member]
    constructor
    · rintro ⟨location, entry, leads, _⟩
      cases fresh.symm.trans leads
    · rintro ⟨location, entry, leads, _⟩
      cases fresh'.symm.trans leads

/-- From `..` the file in the directory below is found, where those upwards have none. -/
theorem search_goes_down_from_up :
    configured.isDir ⟨".."⟩ = true ∧ configured.resolve ⟨".."⟩ true = .ok (.taken []) ∧
      (∀ dir ∈ upwards [] [], ¬ configured.HasEntry dir fileName) ∧
      find? configured ⟨".."⟩ = some ⟨fileName⟩ := by
  have fresh : configured.resolveFrom true linkLimit [] [fileName] =
      .ok (.free [] fileName false) := by decide +kernel
  refine ⟨by decide +kernel, by decide +kernel, ?_, by decide +kernel⟩
  intro dir member
  obtain rfl : dir = [] := by simpa [upwards] using member
  rintro ⟨location, entry, leads, _⟩
  cases fresh.symm.trans leads

end Config
end Phrasebook
