import Phrasebook.Proofs.FileTree.Names
import Phrasebook.Proofs.FileTree.Write

/-!
# Files of one directory

The path of a directory and a plain name lead to the entry of that name.  So writing such a
path inserts an entry into the directory, and reading it gives the content of the entry.
-/

namespace Phrasebook
namespace FileTree

open Phrasebook.Path

variable {tree : FileTree} {path dir : Path} {location start steps : List String}
variable {links : Nat} {spot : Spot} {entries : List (String × Entry)}

theorem walk_append {followLast : Bool} (links : Nat)
    {onLink onLink' : List String → List String → Except FileError Spot}
    (self : ∀ start steps, tree.walk followLast onLink' start steps =
      tree.resolveFrom followLast links start steps)
    (jumps : ∀ start steps location, onLink start steps = .ok (.taken location) →
      ∃ left, ∀ next more, onLink' start (steps ++ next :: more) =
        tree.resolveFrom followLast left location (next :: more))
    (leads : tree.walk true onLink start steps = .ok (.taken location)) :
    ∃ left, ∀ next more, tree.walk followLast onLink' start (steps ++ next :: more) =
      tree.resolveFrom followLast left location (next :: more) := by
  induction steps generalizing start with
  | nil =>
      cases leads
      exact ⟨links, fun next more => self _ _⟩
  | cons step rest ih =>
      simp only [List.cons_append, walk_cons tree followLast]
      rcases walk_true_cons_eq_taken_iff.mp leads with ⟨next, moved, leads⟩ | ⟨target, moved, leads⟩
      · simp only [moved]
        exact ih leads
      · obtain ⟨left, onward⟩ := jumps _ _ _ leads
        refine ⟨left, ?_⟩
        intro next more
        rw [moved, ← onward, List.append_assoc]
        exact if_neg (by simp)

/-- Once some steps have led to a node, the next ones go on from there. -/
theorem resolveFrom_append (followLast : Bool)
    (leads : tree.resolveFrom true links start steps = .ok (.taken location)) :
    ∃ left, ∀ next more, tree.resolveFrom followLast links start (steps ++ next :: more) =
      tree.resolveFrom followLast left location (next :: more) := by
  induction links generalizing start steps location with
  | zero => exact walk_append 0 (fun _ _ => rfl) (by simp) leads
  | succ links ih => exact walk_append (links + 1) (fun _ _ => rfl) (fun _ _ _ => ih) leads

theorem taken_of_walk {onLink : List String → List String → Except FileError Spot} {step : String}
    (named : step ≠ "")
    (jumps : ∀ start steps spot, onLink start (steps ++ [step]) = .ok spot →
      ∃ location, onLink start steps = .ok (.taken location))
    (leads : tree.walk true onLink start (steps ++ [step]) = .ok spot) :
    ∃ location, tree.walk true onLink start steps = .ok (.taken location) := by
  induction steps generalizing start with
  | nil => exact ⟨start, rfl⟩
  | cons first rest ih =>
      simp only [List.cons_append, walk_cons] at leads ⊢
      cases moved : tree.move start first with
      | stop error => simp [moved] at leads
      | free => simp [moved, named] at leads
      | on next =>
          rw [moved] at leads
          exact ih leads
      | link target =>
          simp only [moved, Bool.not_true, Bool.false_eq_true, and_false, if_false,
            ← List.append_assoc] at leads ⊢
          exact jumps _ _ _ leads

/-- What stands before a name leads to a node, if the whole leads somewhere. -/
theorem taken_of_resolveFrom {step : String} (named : step ≠ "")
    (leads : tree.resolveFrom true links start (steps ++ [step]) = .ok spot) :
    ∃ location, tree.resolveFrom true links start steps = .ok (.taken location) := by
  induction links generalizing start steps spot with
  | zero => exact taken_of_walk named (by simp) leads
  | succ links ih => exact taken_of_walk named (fun _ _ _ => ih) leads

theorem resolveFrom_eq_walk (tree : FileTree) (followLast : Bool) (links : Nat) :
    ∃ onLink, tree.resolveFrom followLast links = tree.walk followLast onLink := by
  cases links with
  | zero => exact ⟨_, rfl⟩
  | succ links => exact ⟨_, rfl⟩

variable {step : String}

theorem resolveFrom_of_on {next : List String} (moved : tree.move location step = .on next) :
    tree.resolveFrom true links location [step] = .ok (.taken next) := by
  obtain ⟨onLink, equal⟩ := resolveFrom_eq_walk tree true links
  rw [equal, walk_cons, moved]
  rfl

theorem resolveFrom_of_free (moved : tree.move location step = .free) :
    tree.resolveFrom true links location [step] = .ok (.free location step false) := by
  obtain ⟨onLink, equal⟩ := resolveFrom_eq_walk tree true links
  rw [equal, walk_cons, moved]
  rfl

theorem resolveFrom_here (there : tree.root.at? location = some (.dir entries)) :
    tree.resolveFrom true links location [""] = .ok (.taken location) := by
  apply resolveFrom_of_on
  rw [move, if_neg (by decide), there]
  rfl

/-- A single step leads somewhere only from a directory. -/
theorem dir_of_resolveFrom (leads : tree.resolveFrom true links location [step] = .ok spot) :
    step.utf8ByteSize ≤ 255 ∧ ∃ entries, tree.root.at? location = some (.dir entries) := by
  have goes : ∀ error, tree.move location step ≠ .stop error := by
    intro error moved
    obtain ⟨onLink, equal⟩ := resolveFrom_eq_walk tree true links
    rw [equal, walk_cons, moved] at leads
    cases leads
  unfold move at goes
  split at goes
  · exact absurd rfl (goes _)
  · rename_i short
    split at goes
    · rename_i entries there
      exact ⟨by omega, entries, there⟩
    · exact absurd rfl (goes _)

section
variable (short : step.utf8ByteSize ≤ 255) (named : step ≠ "") (notHere : step ≠ ".")
variable (notUp : step ≠ "..") (there : tree.root.at? location = some (.dir entries))
include short named notHere notUp there

/-- A name that a directory does not have is free. -/
theorem resolveFrom_of_none (fresh : Table.get? entries step = none) :
    tree.resolveFrom true links location [step] = .ok (.free location step false) := by
  apply resolveFrom_of_free
  rw [move, if_neg (by omega), there]
  simp only [if_neg (not_or.mpr ⟨named, notHere⟩), if_neg notUp, fresh]

/-- The name of a file leads to it. -/
theorem resolveFrom_of_file {content : Content}
    (held : Table.get? entries step = some (.file content)) :
    tree.resolveFrom true links location [step] = .ok (.taken (location ++ [step])) := by
  apply resolveFrom_of_on
  rw [move, if_neg (by omega), there]
  simp only [if_neg (not_or.mpr ⟨named, notHere⟩), if_neg notUp, held]

end

/-- Where the resolution of a path starts. -/
def origin (tree : FileTree) (path : Path) : List String :=
  if path.isAbsolute then [] else tree.here

/-- What a path must be to be looked at. -/
structure Sound (path : Path) : Prop where
  noNul : '\x00' ∉ path.text.toList
  somewhere : path.text ≠ ""
  short : path.text.utf8ByteSize < 4096

theorem resolve_of_sound (sound : Sound path) (followLast : Bool) :
    tree.resolve path followLast = tree.resolveFrom followLast linkLimit (tree.origin path)
      (FileTree.steps path.text) := by
  have noNul : path.text.toList.contains '\x00' = false := by
    simpa using sound.noNul
  have short : ¬ path.text.utf8ByteSize ≥ 4096 := Nat.not_le.mpr sound.short
  simp only [resolve, resolveBy, noNul, Bool.false_eq_true, if_false, sound.somewhere, short,
    origin]

theorem sound_of_resolve {followLast : Bool} (leads : tree.resolve path followLast = .ok spot) :
    Sound path := by
  unfold resolve resolveBy at leads
  split at leads
  · cases leads
  · rename_i noNul
    split at leads
    · cases leads
    · rename_i somewhere
      split at leads
      · cases leads
      · rename_i short
        exact ⟨by simpa using noNul, somewhere, by omega⟩

/-! ## Directories -/

/-- The path of a directory leads to a location with these entries. -/
structure Opens (tree : FileTree) (dir : Path) (location : List String)
    (entries : List (String × Entry)) : Prop where
  sound : Sound dir
  leads : tree.resolveFrom true linkLimit (tree.origin dir) (pieces dir.text) =
    .ok (.taken location)
  there : tree.root.at? location = some (.dir entries)

theorem Opens.entry (opens : Opens tree dir location entries) :
    tree.entry dir = .ok (.dir entries) := by
  rw [entry_eq_ok_iff]
  refine ⟨location, ?_, opens.there⟩
  rw [resolve_of_sound opens.sound, FileTree.steps]
  split
  · obtain ⟨left, onward⟩ := resolveFrom_append true opens.leads
    rw [onward, resolveFrom_here opens.there]
  · exact opens.leads

theorem Opens.names (opens : Opens tree dir location entries) :
    tree.names dir = .ok (Table.names entries) := by
  rw [FileTree.names, opens.entry]

theorem Opens.isDir (opens : Opens tree dir location entries) : tree.isDir dir = true := by
  rw [FileTree.isDir, opens.entry]
  rfl

theorem Opens.pathExists (opens : Opens tree dir location entries) :
    tree.pathExists dir = true := by
  rw [FileTree.pathExists, opens.entry]
  rfl

/-- A directory is open in a grown tree, too. -/
theorem Opens.grown (opens : Opens tree dir location entries) {after : FileTree}
    (grown : Grown tree after) {others : List (String × Entry)}
    (there : after.root.at? location = some (.dir others)) : Opens after dir location others where
  sound := opens.sound
  leads := by
    rw [origin, grown.here]
    exact resolveFrom_of_grown grown opens.leads
  there := there

section
variable {name : String} {content : Content}
variable (plain : Plain name.toList)
include plain

theorem steps_of_plain : FileTree.steps name = [name] := by
  have notEnded : name.toList.getLast? ≠ some '/' := fun ended =>
    plain.noSlash (List.mem_of_getLast? ended)
  rw [FileTree.steps, if_neg notEnded, pieces, split_of_not_mem plain.noSlash]
  simp [plain.nonempty]

theorem steps_join (dir : Path) :
    FileTree.steps (dir.join ⟨name⟩).text = pieces dir.text ++ [name] := by
  by_cases somewhere : dir.text = ""
  · rw [text_join_of_nowhere plain somewhere, steps_of_plain plain, somewhere]
    rfl
  · obtain ⟨front, text, same⟩ := text_join plain somewhere
    have notEnded : (front ++ '/' :: name.toList).getLast? ≠ some '/' := by
      intro ended
      rw [← List.singleton_append, ← List.append_assoc,
        List.getLast?_append_of_ne_nil _ plain.nonempty] at ended
      exact plain.noSlash (List.mem_of_getLast? ended)
    rw [FileTree.steps, text, if_neg notEnded, pieces, text, split_append_slash,
      split_of_not_mem plain.noSlash, List.filter_append, same]
    simp [pieces, plain.nonempty]

theorem sound_of_join (somewhere : dir.text ≠ "") (sound : Sound (dir.join ⟨name⟩)) :
    Sound dir := by
  obtain ⟨back, text⟩ := isPrefix_join plain dir
  have whole : (dir.join ⟨name⟩).text = dir.text ++ String.ofList back := by
    rw [← String.toList_inj, ← text]
    simp
  refine ⟨?_, somewhere, ?_⟩
  · have noNul := sound.noNul
    rw [← text, List.mem_append, not_or] at noNul
    exact noNul.1
  · have short := sound.short
    rw [whole, String.utf8ByteSize_append] at short
    omega

theorem origin_join (tree : FileTree) (dir : Path) :
    tree.origin (dir.join ⟨name⟩) = tree.origin dir := by
  have absolute : (dir.join ⟨name⟩).isAbsolute = dir.isAbsolute := by
    by_cases nowhere : dir.text = ""
    · rw [isAbsolute, text_join_of_nowhere plain nowhere, isAbsolute, nowhere]
      exact not_isAbsolute_of_plain plain
    · obtain ⟨back, text⟩ := isPrefix_join plain dir
      unfold isAbsolute
      rw [← text]
      cases first : dir.text.toList with
      | nil => exact absurd (String.toList_eq_nil_iff.mp first) nowhere
      | cons c rest => rfl
  rw [origin, origin, absolute]

theorem resolve_join (sound : Sound (dir.join ⟨name⟩)) (followLast : Bool) :
    tree.resolve (dir.join ⟨name⟩) followLast =
      tree.resolveFrom followLast linkLimit (tree.origin dir) (pieces dir.text ++ [name]) := by
  rw [resolve_of_sound sound, steps_join plain dir, origin_join plain tree dir]

theorem ne_of_plain : name ≠ "" ∧ name ≠ "." ∧ name ≠ ".." := by
  refine ⟨?_, ?_, ?_⟩
  · rintro rfl
    exact plain.nonempty rfl
  · rintro rfl
    exact plain.notHere rfl
  · rintro rfl
    exact plain.notUp rfl

/-- A path into a directory leads somewhere only if the directory is there. -/
theorem opens_of_resolve (somewhere : dir.text ≠ "")
    (leads : tree.resolve (dir.join ⟨name⟩) true = .ok spot) :
    Sound (dir.join ⟨name⟩) ∧ name.utf8ByteSize ≤ 255 ∧
      ∃ location entries, Opens tree dir location entries := by
  have sound := sound_of_resolve leads
  rw [resolve_join plain sound] at leads
  obtain ⟨location, taken⟩ := taken_of_resolveFrom (ne_of_plain plain).1 leads
  obtain ⟨left, onward⟩ := resolveFrom_append true taken
  rw [onward] at leads
  obtain ⟨short, entries, there⟩ := dir_of_resolveFrom leads
  exact ⟨sound, short, location, entries, sound_of_join plain somewhere sound, taken, there⟩

variable (opens : Opens tree dir location entries) (sound : Sound (dir.join ⟨name⟩))
variable (short : name.utf8ByteSize ≤ 255)
include opens sound short

theorem resolve_of_none (fresh : Table.get? entries name = none) :
    tree.resolve (dir.join ⟨name⟩) true = .ok (.free location name false) := by
  obtain ⟨left, onward⟩ := resolveFrom_append true opens.leads
  obtain ⟨named, notHere, notUp⟩ := ne_of_plain plain
  rw [resolve_join plain sound, onward,
    resolveFrom_of_none short named notHere notUp opens.there fresh]

theorem resolve_of_file (held : Table.get? entries name = some (.file content)) :
    tree.resolve (dir.join ⟨name⟩) true = .ok (.taken (location ++ [name])) := by
  obtain ⟨left, onward⟩ := resolveFrom_append true opens.leads
  obtain ⟨named, notHere, notUp⟩ := ne_of_plain plain
  rw [resolve_join plain sound, onward,
    resolveFrom_of_file short named notHere notUp opens.there held]

/-- A file of a directory is read at its name. -/
theorem entry_of_file (held : Table.get? entries name = some (.file content)) :
    tree.entry (dir.join ⟨name⟩) = .ok (.file content) := by
  rw [entry_eq_ok_iff]
  refine ⟨location ++ [name], resolve_of_file plain opens sound short held, ?_⟩
  rw [Entry.at?_append_singleton opens.there, held]

end

/-- What writing a file at a name of a directory makes of the tree: the directory has the
file at the name, and nothing else has changed. -/
structure Puts (tree after : FileTree) (dir : Path) (location : List String)
    (entries : List (String × Entry)) (name : String) (content : Content) : Prop where
  grown : Grown tree after
  opens : Opens after dir location (Table.insert entries name (.file content))
  sound : Sound (dir.join ⟨name⟩)
  short : name.utf8ByteSize ≤ 255

theorem exists_resolve_of_write {content : Content} {after : FileTree}
    (written : tree.write path content = .ok after) :
    ∃ spot, tree.resolve path true = .ok spot := by
  unfold FileTree.write at written
  cases leads : tree.resolve path true with
  | error error =>
      rw [leads] at written
      cases written
  | ok spot => exact ⟨spot, rfl⟩

/-- A path to a directory cannot be written to. -/
theorem not_isDir_of_write {content : Content} {after : FileTree}
    (written : tree.write path content = .ok after) : tree.isDir path = false := by
  by_contra isDir
  rw [Bool.not_eq_false, FileTree.isDir] at isDir
  split at isDir
  · rename_i entry leads
    obtain ⟨location, resolved, there⟩ := entry_eq_ok_iff.mp leads
    cases entry with
    | dir entries =>
        simp [FileTree.write, resolved, bind, Except.bind, there] at written
    | _ => cases isDir
  · cases isDir

/-- Writing at a name where the directory has a file or nothing puts a file there. -/
theorem puts_of_write {name : String} {content : Content} {after : FileTree}
    (plain : Plain name.toList) (opens : Opens tree dir location entries)
    (writable : ∀ old, Table.get? entries name = some old → ∃ content, old = .file content)
    (written : tree.write (dir.join ⟨name⟩) content = .ok after) :
    Puts tree after dir location entries name content := by
  obtain ⟨spot, leads⟩ := exists_resolve_of_write written
  obtain ⟨sound, short, _⟩ := opens_of_resolve plain opens.sound.somewhere leads
  have put : after = tree.putAt (location ++ [name]) (.file content) := by
    unfold FileTree.write at written
    cases held : Table.get? entries name with
    | none =>
        rw [resolve_of_none plain opens sound short held] at written
        exact (Except.ok.inj written).symm
    | some old =>
        obtain ⟨before, rfl⟩ := writable old held
        rw [resolve_of_file plain opens sound short held] at written
        simp only [bind, Except.bind, Entry.at?_append_singleton opens.there, held] at written
        exact (Except.ok.inj written).symm
  have grown : Grown tree after := by
    rw [put]
    exact (wrote_putAt opens.there writable).grown
  refine ⟨grown, opens.grown grown ?_, sound, short⟩
  rw [put]
  exact Entry.at?_put opens.there

end FileTree
end Phrasebook
