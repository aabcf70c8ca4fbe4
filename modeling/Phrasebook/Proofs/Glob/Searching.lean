import Phrasebook.Proofs.FileTree.SameWay
import Phrasebook.Proofs.Glob.Fits

/-!
# What a search finds

A search for the components of a pattern comes to the directories to which the steps lead that they
stand for.  It spells them in its own way: the directory at hand, where it starts, is not written in
front of a name.
-/

namespace Phrasebook.Glob

open Phrasebook.Path

variable {search : Search} {tree : FileTree} {path long found : Path} {name step : String}
variable {pattern : Pattern} {patterns rest : List Pattern} {steps : List String} {fuel : Nat}

theorem isHere_iff : isHere path = true ↔ path.opening = some .here ∧ path.names = [] := by
  rw [isHere, beq_iff_eq, parts_eq_opening]
  constructor
  · intro parts
    cases opened : path.opening with
    | none =>
        rw [opened, Option.toList_none, List.nil_append, List.map_eq_singleton_iff] at parts
        obtain ⟨name, single, here⟩ := parts
        have absent : "." ∉ path.names := by simp [names]
        exact absurd (single ▸ List.mem_singleton.mpr (partOf_eq_here_iff.mp here).symm) absent
    | some part =>
        rw [opened, Option.toList_some, List.singleton_append] at parts
        obtain ⟨rfl, none⟩ := List.cons.inj parts
        exact ⟨rfl, List.map_eq_nil_iff.mp none⟩
  · rintro ⟨opened, none⟩
    rw [opened, none]
    rfl

theorem not_isAbsolute_of_isHere (here : isHere path = true) : path.isAbsolute = false := by
  rw [Bool.eq_false_iff, Ne, ← opening_eq_root_iff, (isHere_iff.mp here).1]
  simp

/-- The starting directory need not be written. -/
theorem trims_nowhere (relative : long.isAbsolute = false) (unnamed : long.names = []) :
    Trims ⟨""⟩ long :=
  ⟨⟨relative.symm, unnamed.symm⟩, by simp, Nat.zero_le _, Nat.zero_le _⟩

/-- Whether steps come to an empty one before they leave the directory at hand. -/
def Stalls (steps : List String) : Prop :=
  (steps.dropWhile (· = ".")).head? = some ""

instance (steps : List String) : Decidable (Stalls steps) :=
  inferInstanceAs (Decidable ((steps.dropWhile (· = ".")).head? = some ""))

section
variable (noSlash : '/' ∉ step.toList)
include noSlash

theorem names_step : (path.join ⟨step⟩).names =
    path.names ++ if step = "" ∨ step = "." then [] else [step] := by
  rw [names_join (not_isAbsolute_of_not_mem noSlash), names, names, pieces_of_not_mem noSlash]
  by_cases empty : step = ""
  · simp [empty]
  · by_cases here : step = "."
    · simp [here]
    · simp [empty, here]

/-- A step leads to the directory at hand only from there. -/
theorem isHere_of_step (somewhere : path.text ≠ "")
    (here : isHere (path.join ⟨step⟩) = true) :
    isHere path = true ∧ (step = "" ∨ step = ".") := by
  rw [isHere_iff, names_step noSlash, List.append_eq_nil_iff,
    opening_join (not_isAbsolute_of_not_mem noSlash) somewhere] at here
  refine ⟨isHere_iff.mpr ⟨here.1, here.2.1⟩, ?_⟩
  by_contra named
  rw [if_neg named] at here
  cases here.2.2

theorem isHere_of_below (somewhere : path.text ≠ "") (here : isHere (below path step) = true) :
    isHere path = true ∧ (step = "" ∨ step = ".") := by
  unfold below at here
  split at here
  · rename_i start
    refine ⟨start, ?_⟩
    rw [← join_of_nowhere rfl (not_isAbsolute_of_not_mem noSlash), isHere_iff, names_step noSlash]
      at here
    by_contra named
    rw [if_neg named] at here
    simp at here
  · exact isHere_of_step noSlash somewhere here

theorem trims_below (trims : Trims path long) :
    Trims (below path step) (long.join ⟨step⟩) := by
  have relative := not_isAbsolute_of_not_mem noSlash
  unfold below
  split
  · rename_i here
    have trims := (trims_nowhere (trims.sameWay.absolute.symm.trans (not_isAbsolute_of_isHere here))
      (trims.sameWay.names.symm.trans (isHere_iff.mp here).2)).join noSlash
    rwa [join_of_nowhere rfl relative] at trims
  · exact trims.join noSlash

end

/-- Whether a search that goes on from a path with some steps goes the way of another path, and does
not stall. -/
structure Ahead (path long : Path) (steps : List String) : Prop where
  trims : Trims path long
  somewhere : path.text ≠ ""
  leaves : isHere path = true → ¬ Stalls steps

theorem Ahead.isDir (ahead : Ahead path long steps) (noSlash : ∀ step ∈ steps, '/' ∉ step.toList)
    (dir : tree.isDir (long.joinAll steps) = true) : tree.isDir path = true := by
  have somewhere : long.text ≠ "" := by
    intro nowhere
    have size := ahead.trims.size
    rw [nowhere] at size
    exact ahead.somewhere (String.utf8ByteSize_eq_zero_iff.mp (Nat.le_zero.mp size))
  exact FileTree.isDir_of_trims ahead.trims ahead.somewhere
    (FileTree.isDir_of_steps somewhere noSlash dir)

/-- A step is made by writing it behind the path, or alone if the path is the directory at hand. -/
theorem Ahead.onward (ahead : Ahead path long (step :: steps)) (noSlash : '/' ∉ step.toList)
    {next : Path} (made : next = below path step ∨ next = path.join ⟨step⟩) :
    Ahead next (long.join ⟨step⟩) steps := by
  have named : isHere path = true → step ≠ "" := by
    rintro here rfl
    exact ahead.leaves here rfl
  have onward : isHere path = true ∧ (step = "" ∨ step = ".") → ¬ Stalls steps := by
    rintro ⟨here, empty | rfl⟩
    · exact absurd empty (named here)
    · exact ahead.leaves here
  rcases made with rfl | rfl
  · refine ⟨trims_below noSlash ahead.trims, ?_, fun here =>
      onward (isHere_of_below noSlash ahead.somewhere here)⟩
    unfold below
    split
    · rename_i here
      exact named here
    · exact text_join_ne_empty noSlash ahead.somewhere
  · exact ⟨ahead.trims.join noSlash, text_join_ne_empty noSlash ahead.somewhere, fun here =>
      onward (isHere_of_step noSlash ahead.somewhere here)⟩

/-! ## Directories that a search comes to -/

theorem fileName?_below (plain : Plain name.toList) (path : Path) :
    (below path name).fileName? = some name := by
  have named : ∃ front, (below path name).names = front ++ [name] := by
    have names : ∀ path : Path, (path.join ⟨name⟩).names = path.names ++ [name] := by
      intro path
      have ne := FileTree.ne_of_plain plain
      rw [names_step plain.noSlash, if_neg (not_or.mpr ⟨ne.1, ne.2.1⟩)]
    unfold below
    split
    · rw [← join_of_nowhere rfl (not_isAbsolute_of_plain plain)]
      exact ⟨_, names _⟩
    · exact ⟨_, names _⟩
  obtain ⟨front, names⟩ := named
  have last : (below path name).parts.getLast? = some (.name name) := by
    rw [parts_eq_opening, names, List.map_append, ← List.append_assoc]
    simp [partOf, plain.ofText]
  rw [fileName?, last]

/-- A search goes on at a name that is given, if it leads to a directory. -/
theorem mem_from_of_literal (literal : pattern.literal? = some name)
    (dir : search.tree.isDir path = true) (next : search.tree.isDir (below path name) = true)
    (onward : found ∈ search.from fuel rest (below path name)) :
    found ∈ search.from (fuel + 1) (pattern :: rest) path := by
  obtain ⟨_, _, opens⟩ := FileTree.isDir_iff_opens.mp next
  have has : search.has (below path name) = true := by
    rw [Search.has, opens.pathExists, Bool.true_or]
  rw [Search.from]
  simp only [literal, dir, has, and_true]
  rwa [if_pos (Classical.em _)]

section
variable {names : List String} (wild : pattern.literal? = none)
variable (listed : search.tree.names path = .ok names)
include wild listed

/-- A search goes on at the names in a directory. -/
theorem mem_from_of_child (member : name ∈ names)
    (child : found ∈ search.at fuel (pattern :: rest) (below path name)) :
    found ∈ search.from (fuel + 1) (pattern :: rest) path := by
  rw [Search.from]
  simp only [wild, listed]
  exact List.mem_append_left _ (List.mem_flatMap.mpr ⟨name, member, child⟩)

/-- A search goes on at the directory itself and above it, if the component begins with a point. -/
theorem mem_from_of_special (special : name = "." ∨ name = "..")
    (pointed : pattern.tokens.head? = some (.char '.')) (matched : pattern.matchesText name = true)
    (around : found ∈ search.from fuel rest (path.join ⟨name⟩)) :
    found ∈ search.from (fuel + 1) (pattern :: rest) path := by
  rw [Search.from]
  simp only [wild, listed, pointed, if_true]
  refine List.mem_append_right _ (List.mem_flatMap.mpr ⟨name, ?_, around⟩)
  exact List.mem_filter.mpr ⟨by simpa using special, matched⟩

end

theorem at_eq_named (fixed : pattern.isRecursive = false) :
    search.at (fuel + 1) (pattern :: rest) path = search.named fuel (pattern :: rest) path := by
  unfold Search.at
  rw [fixed, if_neg Bool.false_ne_true]

section
variable (recursive : pattern.isRecursive = true)
include recursive

theorem mem_at_of_deeper (dir : search.tree.isDir path = true)
    (deeper : found ∈ search.from fuel (pattern :: rest.dropWhile Pattern.isRecursive) path) :
    found ∈ search.at (fuel + 1) (pattern :: rest) path := by
  unfold Search.at
  simp only [recursive, dir, if_true]
  split
  · exact List.mem_cons_of_mem _ deeper
  · exact List.mem_append_left _ deeper

theorem mem_at_of_last (dir : search.tree.isDir path = true)
    (last : rest.dropWhile Pattern.isRecursive = []) :
    path ∈ search.at (fuel + 1) (pattern :: rest) path := by
  unfold Search.at
  simp only [recursive, dir, if_true, last]
  exact List.mem_cons_self ..

theorem mem_at_of_named (itself : found ∈ search.named fuel (rest.dropWhile Pattern.isRecursive)
    path) : found ∈ search.at (fuel + 1) (pattern :: rest) path := by
  unfold Search.at
  simp only [recursive, if_true]
  split
  · rename_i none
    rw [none] at itself
    cases fuel with
    | zero => cases itself
    | succ fuel => cases itself
  · exact List.mem_append_right _ itself

end

theorem mem_named (called : path.fileName? = some name)
    (matched : pattern.matchesText name = true) (onward : found ∈ search.from fuel rest path) :
    found ∈ search.named (fuel + 1) (pattern :: rest) path := by
  unfold Search.named
  rw [called, Option.any_some, if_pos matched]
  cases rest with
  | nil =>
      cases fuel with
      | zero => cases onward
      | succ fuel => exact onward
  | cons next rest => exact onward

/-- Whether a search comes to a path, in a spelling that can be looked at if the path can. -/
def Search.ComesTo (search : Search) (fuel : Nat) (patterns : List Pattern) (path long : Path) :
    Prop :=
  ∃ found ∈ search.from fuel patterns path, Trims found long ∧ found.text ≠ ""

theorem Search.ComesTo.trans {farther : Path} (comes : search.ComesTo fuel patterns path long)
    (trims : Trims long farther) : search.ComesTo fuel patterns path farther := by
  obtain ⟨found, member, shorter, somewhere⟩ := comes
  exact ⟨found, member, shorter.trans trims, somewhere⟩

/-- The fuel that a search needs for some components and steps: three units for a name, and one for
a component. -/
def effort (patterns : List Pattern) (steps : List String) : Nat :=
  3 * (steps.filter (· ≠ "")).length + patterns.length

theorem effort_name (named : step ≠ "") :
    effort patterns (step :: steps) = effort patterns steps + 3 := by
  rw [effort, effort, List.filter_cons_of_pos (by simpa using named), List.length_cons]
  omega

theorem effort_le (patterns : List Pattern) (step : String) (steps : List String) :
    effort patterns steps ≤ effort patterns (step :: steps) := by
  by_cases named : step = ""
  · simp [effort, named]
  · rw [effort_name named]
    exact Nat.le_add_right ..

theorem effort_cons : effort (pattern :: patterns) steps = effort patterns steps + 1 := by
  rw [effort, effort, List.length_cons, Nat.add_assoc]

theorem effort_dropWhile (patterns : List Pattern) (steps : List String) :
    effort (patterns.dropWhile Pattern.isRecursive) steps ≤ effort patterns steps :=
  Nat.add_le_add_left (List.dropWhile_sublist _).length_le _

/-- Whether a search with enough fuel comes to directories to which some steps lead, whatever
components stand for them. -/
def Search.Follows (search : Search) (steps : List String) : Prop :=
  ∀ fuel patterns path long, Fits patterns steps → Ahead path long steps →
    search.tree.isDir (long.joinAll steps) = true → effort patterns steps < fuel →
    search.ComesTo fuel patterns path (long.joinAll steps)

section
variable (follows : search.Follows steps) (ahead : Ahead path long (step :: steps))
variable (dir : search.tree.isDir (long.joinAll (step :: steps)) = true)
variable (enough : effort (pattern :: rest) (step :: steps) < fuel)
include follows ahead dir enough

theorem comesTo_of_fixed (fixed : pattern.isRecursive = false) (takes : pattern.Takes step)
    (fits : Fits rest steps) :
    search.ComesTo fuel (pattern :: rest) path (long.joinAll (step :: steps)) := by
  have noSlash := takes.noSlash
  have dirPath : search.tree.isDir path = true :=
    ahead.isDir (List.forall_mem_cons.mpr ⟨noSlash, fits.noSlash⟩) dir
  have joined := ahead.onward noSlash (.inr rfl)
  have called := ahead.onward noSlash (.inl rfl)
  rw [effort_cons] at enough
  cases literal : pattern.literal? with
  | some name =>
      obtain rfl := eq_of_matchesText literal takes.1
      have less := effort_le rest step steps
      obtain ⟨fuel, rfl⟩ : ∃ less, fuel = less + 1 := Nat.exists_eq_add_one.mpr (by omega)
      obtain ⟨found, member, result⟩ := follows fuel rest _ _ fits called dir (by omega)
      exact ⟨found, mem_from_of_literal literal dirPath (called.isDir fits.noSlash dir) member,
        result⟩
  | none =>
      obtain ⟨matched, plain | ⟨special, pointed⟩ | ⟨_, none⟩⟩ := takes
      · rw [effort_name (FileTree.ne_of_plain plain).1] at enough
        obtain ⟨fuel, rfl⟩ : ∃ less, fuel = less + 3 := Nat.exists_eq_add_of_le' (by omega)
        obtain ⟨found, member, result⟩ := follows fuel rest _ _ fits called dir (by omega)
        obtain ⟨names, listed, inside⟩ := FileTree.exists_mem_names plain ahead.somewhere
          (joined.isDir fits.noSlash dir)
        refine ⟨found, mem_from_of_child literal listed inside ?_, result⟩
        rw [at_eq_named fixed]
        exact mem_named (fileName?_below plain path) matched member
      · have less := effort_le rest step steps
        obtain ⟨fuel, rfl⟩ : ∃ less, fuel = less + 1 := Nat.exists_eq_add_one.mpr (by omega)
        obtain ⟨found, member, result⟩ := follows fuel rest _ _ fits joined dir (by omega)
        obtain ⟨_, _, opens⟩ := FileTree.isDir_iff_opens.mp dirPath
        exact ⟨found, mem_from_of_special literal opens.names special pointed matched member,
          result⟩
      · have empty : pattern.literal? = some "" := literal?_eq_some_iff.mpr none
        rw [literal] at empty
        cases empty

theorem comesTo_of_recursive (recursive : pattern.isRecursive = true)
    (fits : Fits (pattern :: rest) (step :: steps)) :
    search.ComesTo fuel (pattern :: rest) path (long.joinAll (step :: steps)) := by
  have noSlashes := (List.forall_mem_cons.mp fits.noSlash).2
  obtain ⟨plain, cases⟩ := (fits_cons_iff_of_recursive recursive).mp fits
  have joined := ahead.onward plain.noSlash (.inr rfl)
  have called := ahead.onward plain.noSlash (.inl rfl)
  have there := called.isDir noSlashes dir
  obtain ⟨names, listed, inside⟩ := FileTree.exists_mem_names plain ahead.somewhere
    (joined.isDir noSlashes dir)
  have wild := literal?_of_isRecursive recursive
  have less := effort_dropWhile rest steps
  rw [effort_name (FileTree.ne_of_plain plain).1, effort_cons] at enough
  rcases cases with deeper | ⟨none, rfl⟩ | behind
  · obtain ⟨fuel, rfl⟩ : ∃ less, fuel = less + 2 := Nat.exists_eq_add_of_le' (by omega)
    obtain ⟨found, member, result⟩ := follows fuel _ _ _ ((fits_dropWhile recursive).mpr deeper)
      called dir (by rw [effort_cons]; omega)
    exact ⟨found, mem_from_of_child wild listed inside (mem_at_of_deeper recursive there member),
      result⟩
  · obtain ⟨fuel, rfl⟩ : ∃ less, fuel = less + 2 := Nat.exists_eq_add_of_le' (by omega)
    exact ⟨_, mem_from_of_child wild listed inside (mem_at_of_last recursive there none),
      called.trims, called.somewhere⟩
  · cases next : rest.dropWhile Pattern.isRecursive with
    | nil =>
        rw [next] at behind
        cases behind
    | cons following others =>
        rw [next] at behind less
        have fixed : following.isRecursive = false := isRecursive_of_dropWhile (by rw [next]; rfl)
        obtain ⟨takes, fits⟩ := (fits_cons_iff fixed).mp behind
        rw [effort_cons] at less
        obtain ⟨fuel, rfl⟩ : ∃ less, fuel = less + 3 := Nat.exists_eq_add_of_le' (by omega)
        obtain ⟨found, member, result⟩ := follows fuel others _ _ fits called dir (by omega)
        refine ⟨found, mem_from_of_child wild listed inside (mem_at_of_named recursive ?_), result⟩
        rw [next]
        exact mem_named (fileName?_below plain path) takes.1 member

end

/-- A search with enough fuel comes to the directories to which steps lead that its components stand
for. -/
theorem comesTo_of_fits (search : Search) (steps : List String) : search.Follows steps := by
  induction steps with
  | nil =>
      intro fuel patterns path long fits ahead dir enough
      cases fits
      obtain ⟨fuel, rfl⟩ := Nat.exists_eq_add_of_lt enough
      refine ⟨path, ?_, ahead.trims, ahead.somewhere⟩
      have admits : search.admits path = true := by
        simp [Search.admits, ahead.isDir (by simp) dir]
      rw [Search.from, if_pos admits]
      exact List.mem_singleton.mpr rfl
  | cons step steps ih =>
      intro fuel patterns path long fits ahead dir enough
      cases patterns with
      | nil => cases fits
      | cons pattern rest =>
          cases recursive : pattern.isRecursive with
          | true => exact comesTo_of_recursive ih ahead dir enough recursive fits
          | false =>
              obtain ⟨takes, fits⟩ := (fits_cons_iff recursive).mp fits
              exact comesTo_of_fixed ih ahead dir enough recursive takes fits

/-- A name that is given leads from the directory at hand, which need not be written. -/
theorem comesTo_from_here (noSlash : '/' ∉ name.toList) (leaves : ¬ Stalls (name :: steps))
    (fits : Fits patterns steps) (dir : search.tree.isDir ((Path.mk name).joinAll steps) = true)
    (enough : effort patterns steps < fuel) :
    search.ComesTo (fuel + 1) (Pattern.ofText name :: patterns) ⟨"."⟩
      ((Path.mk name).joinAll steps) := by
  have called : below ⟨"."⟩ name = ⟨name⟩ := rfl
  have somewhere : (Path.mk name).text ≠ "" := by
    rintro rfl
    exact leaves rfl
  have ahead : Ahead ⟨name⟩ ⟨name⟩ steps := by
    refine ⟨.refl _, somewhere, fun here => ?_⟩
    rw [← called] at here
    rcases (isHere_of_below noSlash (by decide) here).2 with rfl | rfl
    · exact absurd rfl somewhere
    · exact leaves
  have there := ahead.isDir fits.noSlash dir
  have here := FileTree.isDir_here (not_isAbsolute_of_not_mem noSlash) there
  obtain ⟨found, member, result⟩ := comesTo_of_fits search steps fuel patterns _ _ fits ahead dir
    enough
  exact ⟨found, mem_from_of_literal (literal?_ofText name) here there member, result⟩

/-! ## What a search comes to -/

theorem isHere_join_here (here : isHere path = true) : isHere (path.join ⟨"."⟩) = true := by
  have somewhere : path.text ≠ "" := by
    intro nowhere
    rw [show path = ⟨""⟩ from congrArg Path.mk nowhere] at here
    cases here
  obtain ⟨opened, unnamed⟩ := isHere_iff.mp here
  exact isHere_iff.mpr ⟨(opening_join rfl somewhere).trans opened,
    (names_step (by decide)).trans (by simp [unnamed])⟩

theorem not_stalls_of_name (named : step ≠ "" ∧ step ≠ ".") : ¬ Stalls (step :: steps) := by
  rw [Stalls, List.dropWhile_cons_of_neg (by simpa using named.2)]
  simpa using named.1

/-- Nothing stands at a path that is not written. -/
theorem not_has_nowhere : search.has ⟨""⟩ = false :=
  rfl

/-- Whether components stand for a path, seen from another one. -/
def StandFor (patterns : List Pattern) (path found : Path) : Prop :=
  ∃ steps, Fits patterns steps ∧ (isHere path = true → ¬ Stalls steps) ∧
    SameWay found (path.joinAll steps)

/-- What every part of a search comes to is where steps lead that the components stand for. -/
structure Search.Finds (search : Search) (fuel : Nat) (patterns : List Pattern) (path : Path) :
    Prop where
  below : ∀ found ∈ search.from fuel patterns path, StandFor patterns path found
  child : ∀ name, path.fileName? = some name → ∀ found ∈ search.at fuel patterns path, ∃ steps,
    Fits patterns (name :: steps) ∧ SameWay found (path.joinAll steps)
  itself : (∀ pattern ∈ patterns.head?, pattern.isRecursive = false) →
    ∀ name, path.fileName? = some name → ∀ found ∈ search.named fuel patterns path, ∃ steps,
      Fits patterns (name :: steps) ∧ SameWay found (path.joinAll steps)

/-- Whether a search with some fuel comes only to where steps lead that components stand for. -/
def Search.Finding (search : Search) (fuel : Nat) : Prop :=
  ∀ patterns, (∀ pattern ∈ patterns, pattern.IsComponent) → ∀ path,
    search.Finds fuel patterns path

section
variable (finding : search.Finding fuel)
variable (components : ∀ other ∈ pattern :: rest, other.IsComponent)
include finding components

theorem finds_named (fixed : pattern.isRecursive = false) (called : path.fileName? = some name)
    (member : found ∈ search.named (fuel + 1) (pattern :: rest) path) :
    ∃ steps, Fits (pattern :: rest) (name :: steps) ∧ SameWay found (path.joinAll steps) := by
  have plain := plain_of_fileName? called
  unfold Search.named at member
  rw [called, Option.any_some] at member
  split at member
  · rename_i matched
    have takes : pattern.Takes name := ⟨matched, .inl plain⟩
    split at member
    · split at member
      · rw [List.mem_singleton.mp member]
        exact ⟨[], .step fixed takes .done, .refl path⟩
      · cases member
    · obtain ⟨steps, fits, _, same⟩ := (finding rest
        (List.forall_mem_cons.mp components).2 path).below found member
      exact ⟨steps, .step fixed takes fits, same⟩
  · cases member

theorem finds_at (called : path.fileName? = some name)
    (member : found ∈ search.at (fuel + 1) (pattern :: rest) path) :
    ∃ steps, Fits (pattern :: rest) (name :: steps) ∧ SameWay found (path.joinAll steps) := by
  have plain := plain_of_fileName? called
  cases recursive : pattern.isRecursive with
  | false =>
      rw [at_eq_named recursive] at member
      exact (finding _ components path).itself (by simpa using recursive) name called found member
  | true =>
      obtain ⟨first, others⟩ := List.forall_mem_cons.mp components
      have later : ∀ other ∈ rest.dropWhile Pattern.isRecursive, other.IsComponent :=
        fun other member => others other ((List.dropWhile_sublist _).subset member)
      have deeper : ∀ found ∈ if search.tree.isDir path then
          search.from fuel (pattern :: rest.dropWhile Pattern.isRecursive) path else [],
          ∃ steps, Fits (pattern :: rest) (name :: steps) ∧
            SameWay found (path.joinAll steps) := by
        intro found member
        split at member
        · obtain ⟨steps, fits, _, same⟩ := (finding _
            (List.forall_mem_cons.mpr ⟨first, later⟩) path).below found member
          exact ⟨steps, .more recursive plain ((fits_dropWhile recursive).mp fits), same⟩
        · cases member
      unfold Search.at at member
      simp only [recursive, if_true] at member
      split at member
      · rename_i none
        split at member
        · rename_i dir
          rw [if_pos dir] at deeper
          rcases List.mem_cons.mp member with rfl | member
          · exact ⟨[], (fits_cons_iff_of_recursive recursive).mpr ⟨plain, .inr (.inl ⟨none, rfl⟩)⟩,
              .refl found⟩
          · exact deeper found member
        · cases member
      · rcases List.mem_append.mp member with member | member
        · exact deeper found member
        · have fixed : ∀ other ∈ (rest.dropWhile Pattern.isRecursive).head?,
              other.isRecursive = false :=
            fun other first => isRecursive_of_dropWhile first
          obtain ⟨steps, fits, same⟩ := (finding _ later path).itself fixed name called found member
          exact ⟨steps, (fits_cons_iff_of_recursive recursive).mpr ⟨plain, .inr (.inr fits)⟩, same⟩

theorem standFor_given (literal : pattern.literal? = some name)
    (named : isHere path = true → name ≠ "")
    (member : found ∈ search.from fuel rest (below path name)) :
    StandFor (pattern :: rest) path found := by
  obtain ⟨first, others⟩ := List.forall_mem_cons.mp components
  have takes := takes_of_literal first.slashless literal
  obtain ⟨steps, fits, leaves, same⟩ := (finding rest others _).below found member
  refine ⟨name :: steps, .step (isRecursive_of_literal literal) takes fits, ?_, same.trans ?_⟩
  · intro here
    by_cases point : name = "."
    · subst point
      refine leaves ?_
      rw [below, if_pos here]
      rfl
    · exact not_stalls_of_name ⟨named here, point⟩
  · exact (trims_below takes.noSlash (.refl path)).sameWay.joinAll fits.noSlash

theorem standFor_listed (plain : Plain name.toList)
    (member : found ∈ search.at fuel (pattern :: rest) (below path name)) :
    StandFor (pattern :: rest) path found := by
  have ne := FileTree.ne_of_plain plain
  obtain ⟨steps, fits, same⟩ := (finding _ components _).child name (fileName?_below plain path)
    found member
  have noSlashes := (List.forall_mem_cons.mp fits.noSlash).2
  exact ⟨name :: steps, fits, fun _ => not_stalls_of_name ⟨ne.1, ne.2.1⟩, same.trans
    ((trims_below plain.noSlash (.refl path)).sameWay.joinAll noSlashes)⟩

theorem standFor_special (special : name = "." ∨ name = "..")
    (pointed : pattern.tokens.head? = some (.char '.')) (matched : pattern.matchesText name = true)
    (member : found ∈ search.from fuel rest (path.join ⟨name⟩)) :
    StandFor (pattern :: rest) path found := by
  obtain ⟨first, others⟩ := List.forall_mem_cons.mp components
  have fixed : pattern.isRecursive = false := by
    rw [Bool.eq_false_iff]
    intro recursive
    rw [first.alone recursive] at pointed
    cases pointed
  obtain ⟨steps, fits, leaves, same⟩ := (finding rest others _).below found member
  refine ⟨name :: steps, .step fixed ⟨matched, .inr (.inl ⟨special, pointed⟩)⟩ fits, ?_, same⟩
  intro here
  rcases special with rfl | rfl
  · exact leaves (isHere_join_here here)
  · exact not_stalls_of_name (by decide)

theorem finds_from (plainNames : search.tree.hasPlainNames = true)
    (member : found ∈ search.from (fuel + 1) (pattern :: rest) path) :
    StandFor (pattern :: rest) path found := by
  rw [Search.from] at member
  cases literal : pattern.literal? with
  | some name =>
      simp only [literal] at member
      split at member
      · rename_i stands
        refine standFor_given finding components literal ?_ member
        rintro here rfl
        rw [below, if_pos here, not_has_nowhere] at stands
        simp at stands
      · cases member
  | none =>
      simp only [literal] at member
      cases listed : search.tree.names path with
      | error error => simp [listed] at member
      | ok names =>
          rw [listed] at member
          rcases List.mem_append.mp member with child | around
          · obtain ⟨name, inside, member⟩ := List.mem_flatMap.mp child
            have plain := plain_of_names plainNames listed inside
            exact standFor_listed finding components plain member
          · obtain ⟨name, inside, member⟩ := List.mem_flatMap.mp around
            obtain ⟨candidate, matched⟩ := List.mem_filter.mp inside
            split at candidate
            · rename_i pointed
              exact standFor_special finding components (by simpa using candidate) pointed matched
                member
            · cases candidate

end

theorem finding (plainNames : search.tree.hasPlainNames = true) (fuel : Nat) :
    search.Finding fuel := by
  induction fuel with
  | zero =>
      intro patterns _ path
      exact ⟨by simp [Search.from], by simp [Search.at], by simp [Search.named]⟩
  | succ fuel ih =>
      intro patterns components path
      cases patterns with
      | nil =>
          refine ⟨?_, by simp [Search.at], by simp [Search.named]⟩
          intro found member
          rw [Search.from] at member
          split at member
          · rw [List.mem_singleton.mp member]
            exact ⟨[], .done, fun _ => by simp [Stalls], .refl path⟩
          · cases member
      | cons pattern rest =>
          exact ⟨fun found member => finds_from ih components plainNames member,
            fun name called found member => finds_at ih components called member,
            fun fixed name called found member =>
              finds_named ih components (by simpa using fixed) called member⟩

end Phrasebook.Glob
