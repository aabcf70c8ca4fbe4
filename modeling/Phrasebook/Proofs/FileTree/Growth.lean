import Phrasebook.FileTree
import Phrasebook.Proofs.Table

/-!
# Trees that grow

A tree grows when files are written to it, at free names or over files that are there.  What
a path leads to in a tree it leads to in the grown one, up to the content of files.
-/

namespace Phrasebook

open FileTree

namespace Entry

/-- Whether two nodes are of one kind.  Links are if they have the same target. -/
def Alike : Entry → Entry → Prop
  | .file _, .file _ => True
  | .link target, .link other => target = other
  | .dir _, .dir _ => True
  | _, _ => False

theorem Alike.refl (entry : Entry) : Alike entry entry := by
  cases entry with
  | file content => trivial
  | link target => exact rfl
  | dir entries => trivial

theorem Alike.trans {first second third : Entry} (left : Alike first second)
    (right : Alike second third) : Alike first third := by
  cases first <;> cases second <;> cases third <;> simp_all [Alike]

theorem Alike.isDir {first second : Entry} (alike : Alike first second) :
    second.isDir = first.isDir := by
  cases first <;> cases second <;> simp_all [Alike, Entry.isDir]

theorem alike_dir_iff {entries : List (String × Entry)} {other : Entry} :
    Alike (.dir entries) other ↔ ∃ others, other = .dir others := by
  cases other <;> simp [Alike]

/-- Every node of the first tree has one of its kind at the same location of the second. -/
def Grown (before after : Entry) : Prop :=
  ∀ location entry, before.at? location = some entry →
    ∃ other, after.at? location = some other ∧ Alike entry other

theorem Grown.refl (entry : Entry) : Grown entry entry :=
  fun _ found there => ⟨found, there, Alike.refl found⟩

theorem Grown.trans {first second third : Entry} (left : Grown first second)
    (right : Grown second third) : Grown first third := by
  intro location entry found
  obtain ⟨middle, found, alike⟩ := left location entry found
  obtain ⟨last, found, alike'⟩ := right location middle found
  exact ⟨last, found, alike.trans alike'⟩

variable {entries : List (String × Entry)} {name : String} {entry new : Entry}
variable {directory : List String}

theorem at?_append (entry : Entry) (front back : List String) :
    entry.at? (front ++ back) = (entry.at? front).bind fun entry => entry.at? back := by
  induction front generalizing entry with
  | nil => rfl
  | cons step rest ih =>
      cases entry with
      | dir entries => simp only [List.cons_append, at?, Option.bind_assoc, ih]
      | _ => rfl

theorem at?_append_singleton (there : entry.at? directory = some (.dir entries)) :
    entry.at? (directory ++ [name]) = Table.get? entries name := by
  rw [at?_append, there]
  simp [at?]

/-- After something was put at a name of a directory, the directory has it there. -/
theorem at?_put (there : entry.at? directory = some (.dir entries)) :
    (entry.put (directory ++ [name]) new).at? directory =
      some (.dir (Table.insert entries name new)) := by
  induction directory generalizing entry with
  | nil =>
      obtain rfl : entry = .dir entries := Option.some.inj there
      rfl
  | cons step rest ih =>
      cases entry with
      | dir above =>
          obtain ⟨inner, held, below⟩ := Option.bind_eq_some_iff.mp there
          simp only [List.cons_append, put, at?, Table.get?_insert, if_true, held,
            Option.getD_some, Option.bind_some]
          exact ih below
      | _ => cases there

end Entry

namespace FileTree

/-- A tree that has grown, seen from the same place. -/
structure Grown (before after : FileTree) : Prop where
  root : before.root.Grown after.root
  here : after.here = before.here

variable {before after : FileTree} {path : Path} {location : List String}

theorem Grown.refl (tree : FileTree) : Grown tree tree :=
  ⟨Entry.Grown.refl _, rfl⟩

theorem Grown.trans {first second third : FileTree} (left : Grown first second)
    (right : Grown second third) : Grown first third :=
  ⟨left.root.trans right.root, right.here.trans left.here⟩

/-- The directories and links on a way are there in the grown tree too. -/
theorem Grown.get? (grown : Grown before after) {entries : List (String × Entry)}
    (there : before.root.at? location = some (.dir entries)) :
    ∃ others, after.root.at? location = some (.dir others) ∧
      ∀ name entry, Table.get? entries name = some entry →
        ∃ other, Table.get? others name = some other ∧ entry.Alike other := by
  obtain ⟨other, found, alike⟩ := grown.root _ _ there
  obtain ⟨others, rfl⟩ := Entry.alike_dir_iff.mp alike
  refine ⟨others, found, ?_⟩
  intro name entry held
  have below : before.root.at? (location ++ [name]) = some entry := by
    rw [Entry.at?_append_singleton there, held]
  obtain ⟨other, found', alike⟩ := grown.root _ _ below
  rw [Entry.at?_append_singleton found] at found'
  exact ⟨other, found', alike⟩

/-! ## Walks, step by step -/

/-- Where one step of a walk leads. -/
inductive Move where
  | stop (error : FileError)
  | on (location : List String)
  | free
  | link (target : String)

/-- One step of a walk from a location. -/
def move (tree : FileTree) (location : List String) (step : String) : Move :=
  if step.utf8ByteSize > 255 then .stop .nameTooLong
  else
    match tree.root.at? location with
    | some (.dir entries) =>
        if step = "" ∨ step = "." then .on location
        else if step = ".." then .on location.dropLast
        else
          match Table.get? entries step with
          | none => .free
          | some (.link target) => .link target
          | some _ => .on (location ++ [step])
    | _ => .stop .notDirectory

variable {tree : FileTree} {followLast : Bool} {step : String} {steps rest start : List String}
variable {onLink onLink' : List String → List String → Except FileError Spot}

/-- Whether a step leads to a directory, wherever it is made. -/
def IsTurn (step : String) : Prop :=
  step = "" ∨ step = "." ∨ step = ".."

/-- What a step does, by what stands where it is made. -/
inductive Moves (tree : FileTree) (location : List String) (step : String) : Move → Prop where
  | long (long : 255 < step.utf8ByteSize) : Moves tree location step (.stop .nameTooLong)
  | outside (notDir : ∀ entries, tree.root.at? location ≠ some (.dir entries)) :
      Moves tree location step (.stop .notDirectory)
  | here {entries : List (String × Entry)} (here : step = "" ∨ step = ".")
      (there : tree.root.at? location = some (.dir entries)) :
      Moves tree location step (.on location)
  | up {entries : List (String × Entry)} (up : step = "..")
      (there : tree.root.at? location = some (.dir entries)) :
      Moves tree location step (.on location.dropLast)
  | free {entries : List (String × Entry)} (named : ¬ IsTurn step)
      (there : tree.root.at? location = some (.dir entries))
      (absent : Table.get? entries step = none) : Moves tree location step .free
  | link {entries : List (String × Entry)} {target : String} (named : ¬ IsTurn step)
      (there : tree.root.at? location = some (.dir entries))
      (held : Table.get? entries step = some (.link target)) :
      Moves tree location step (.link target)
  | below {entries : List (String × Entry)} {entry : Entry} (named : ¬ IsTurn step)
      (there : tree.root.at? location = some (.dir entries))
      (held : Table.get? entries step = some entry) :
      Moves tree location step (.on (location ++ [step]))

theorem moves_move (tree : FileTree) (location : List String) (step : String) :
    Moves tree location step (tree.move location step) := by
  unfold move
  split
  · rename_i long
    exact .long long
  · split
    · rename_i entries there
      split
      · rename_i here
        exact .here here there
      · rename_i notHere
        split
        · rename_i up
          exact .up up there
        · rename_i notUp
          have named : ¬ IsTurn step := by
            rintro (empty | point | points)
            · exact notHere (.inl empty)
            · exact notHere (.inr point)
            · exact notUp points
          split
          · rename_i absent
            exact .free named there absent
          · rename_i target held
            exact .link named there held
          · rename_i entry _ held
            exact .below named there held
    · rename_i notDir
      exact .outside notDir

theorem moves_of_eq {result : Move} (moved : tree.move location step = result) :
    Moves tree location step result :=
  moved ▸ moves_move tree location step

theorem walk_cons (tree : FileTree) (followLast : Bool)
    (onLink : List String → List String → Except FileError Spot)
    (location : List String) (step : String) (rest : List String) :
    tree.walk followLast onLink location (step :: rest) =
      match tree.move location step with
      | .stop error => .error error
      | .on next => tree.walk followLast onLink next rest
      | .free =>
          if rest.all (· = "") then .ok (.free location step (rest ≠ [])) else .error .notFound
      | .link target =>
          if rest = [] ∧ !followLast then .ok (.taken (location ++ [step]))
          else onLink (if target.startsWith "/" then [] else location)
            (FileTree.steps target ++ rest) := by
  by_cases long : step.utf8ByteSize > 255
  · simp only [walk, move, if_pos long]
  · cases there : tree.root.at? location with
    | none => simp only [walk, move, if_neg long, there]
    | some entry =>
        cases entry with
        | file content => simp only [walk, move, if_neg long, there]
        | link target => simp only [walk, move, if_neg long, there]
        | dir entries =>
            by_cases here : step = "" ∨ step = "."
            · simp only [walk, move, if_neg long, there, if_pos here]
            · by_cases up : step = ".."
              · simp only [walk, move, if_neg long, there, if_neg here, if_pos up]
              · simp only [walk, move, if_neg long, there, if_neg here, if_neg up]
                cases Table.get? entries step with
                | none => rfl
                | some child =>
                    cases child with
                    | link target => rfl
                    | file content => rfl
                    | dir entries => rfl

/-- A walk leads to a node if its first step leads on, or to a link, and the rest leads there
from where that is. -/
theorem walk_cons_eq_taken_iff :
    tree.walk followLast onLink start (step :: rest) = .ok (.taken location) ↔
      (∃ next, tree.move start step = .on next ∧
        tree.walk followLast onLink next rest = .ok (.taken location)) ∨
      ∃ target, tree.move start step = .link target ∧
        (if rest = [] ∧ !followLast then .ok (.taken (start ++ [step]))
          else onLink (if target.startsWith "/" then [] else start)
            (FileTree.steps target ++ rest)) = .ok (.taken location) := by
  rw [walk_cons]
  cases moved : tree.move start step with
  | stop error => simp
  | on next => simp
  | free =>
      dsimp only
      split
      · simp
      · simp
  | link target => simp

theorem walk_true_cons_eq_taken_iff :
    tree.walk true onLink start (step :: rest) = .ok (.taken location) ↔
      (∃ next, tree.move start step = .on next ∧
        tree.walk true onLink next rest = .ok (.taken location)) ∨
      ∃ target, tree.move start step = .link target ∧
        onLink (if target.startsWith "/" then [] else start) (FileTree.steps target ++ rest) =
          .ok (.taken location) := by
  simp only [walk_cons_eq_taken_iff, Bool.not_true, Bool.false_eq_true, and_false, if_false]

/-- A step that leads on, or to a link, does so in a grown tree, too. -/
theorem move_of_grown (grown : Grown before after) :
    (∀ next, before.move location step = .on next → after.move location step = .on next) ∧
      ∀ target, before.move location step = .link target →
        after.move location step = .link target := by
  unfold move
  by_cases long : step.utf8ByteSize > 255
  · simp [long]
  · simp only [if_neg long]
    cases there : before.root.at? location with
    | none => simp
    | some entry =>
        cases entry with
        | file content => simp
        | link target => simp
        | dir entries =>
            obtain ⟨others, found, held⟩ := grown.get? there
            simp only [found]
            by_cases here : step = "" ∨ step = "."
            · simp [here]
            · by_cases up : step = ".."
              · simp [up]
              · simp only [if_neg here, if_neg up]
                cases child : Table.get? entries step with
                | none => simp
                | some entry =>
                    obtain ⟨other, same, alike⟩ := held step entry child
                    rw [same]
                    cases entry <;> cases other <;> simp_all [Entry.Alike]

/-- A walk that ends at a node ends there in a grown tree, too. -/
theorem walk_of_grown (grown : Grown before after)
    (links : ∀ start steps, onLink start steps = .ok (.taken location) →
      onLink' start steps = .ok (.taken location))
    (leads : before.walk followLast onLink start steps = .ok (.taken location)) :
    after.walk followLast onLink' start steps = .ok (.taken location) := by
  induction steps generalizing start with
  | nil => exact leads
  | cons step rest ih =>
      rw [walk_cons_eq_taken_iff] at leads ⊢
      rcases leads with ⟨next, moved, leads⟩ | ⟨target, moved, leads⟩
      · exact .inl ⟨next, (move_of_grown grown).1 next moved, ih leads⟩
      · refine .inr ⟨target, (move_of_grown grown).2 target moved, ?_⟩
        split at leads
        · rename_i last
          rw [if_pos last]
          exact leads
        · rename_i onward
          rw [if_neg onward]
          exact links _ _ leads

theorem resolveFrom_of_grown (grown : Grown before after) {links : Nat}
    (leads : before.resolveFrom followLast links start steps = .ok (.taken location)) :
    after.resolveFrom followLast links start steps = .ok (.taken location) := by
  induction links generalizing start steps with
  | zero => exact walk_of_grown grown (by simp) leads
  | succ links ih => exact walk_of_grown grown (fun _ _ => ih) leads

theorem resolve_of_grown (grown : Grown before after)
    (leads : before.resolve path followLast = .ok (.taken location)) :
    after.resolve path followLast = .ok (.taken location) := by
  unfold resolve resolveBy at leads ⊢
  split at leads
  · cases leads
  · rename_i plain
    rw [if_neg plain]
    split at leads
    · cases leads
    · rename_i somewhere
      rw [if_neg somewhere]
      split at leads
      · cases leads
      · rename_i short
        rw [if_neg short, grown.here]
        exact resolveFrom_of_grown grown leads

/-- The node a path leads to stands at the location it leads to; `entry` follows a link in the
last place and `entryItself` does not. -/
theorem located_eq_ok_iff {entry : Entry} :
    (do
      let location ← tree.locate path followLast
      match tree.root.at? location with
      | some entry => Except.ok entry
      | none => .error .notFound) = Except.ok entry ↔
      ∃ location, tree.resolve path followLast = .ok (.taken location) ∧
        tree.root.at? location = some entry := by
  unfold locate
  cases tree.resolve path followLast with
  | error error => simp [bind, Except.bind]
  | ok spot =>
      cases spot with
      | free directory name slashed => simp [bind, Except.bind]
      | taken location =>
          cases there : tree.root.at? location with
          | none => simp [bind, Except.bind, there]
          | some found => simp [bind, Except.bind, there]

theorem entry_eq_ok_iff {entry : Entry} :
    tree.entry path = .ok entry ↔
      ∃ location, tree.resolve path true = .ok (.taken location) ∧
        tree.root.at? location = some entry :=
  located_eq_ok_iff

theorem entryItself_eq_ok_iff {entry : Entry} :
    tree.entryItself path = .ok entry ↔
      ∃ location, tree.resolve path false = .ok (.taken location) ∧
        tree.root.at? location = some entry :=
  located_eq_ok_iff

/-- A path leads to a node of the same kind in a grown tree. -/
theorem entry_of_grown (grown : Grown before after) {entry : Entry}
    (leads : before.entry path = .ok entry) :
    ∃ other, after.entry path = .ok other ∧ entry.Alike other := by
  obtain ⟨location, resolved, there⟩ := entry_eq_ok_iff.mp leads
  obtain ⟨other, found, alike⟩ := grown.root location entry there
  exact ⟨other, entry_eq_ok_iff.mpr ⟨location, resolve_of_grown grown resolved, found⟩, alike⟩

theorem isDir_of_grown (grown : Grown before after) (isDir : before.isDir path = true) :
    after.isDir path = true := by
  unfold FileTree.isDir at isDir ⊢
  split at isDir
  · rename_i entry leads
    obtain ⟨other, found, alike⟩ := entry_of_grown grown leads
    rw [found]
    exact alike.isDir.trans isDir
  · cases isDir

end FileTree
end Phrasebook
