import Phrasebook.Proofs.FileTree.Growth

/-!
# Writing a file

Writing to a path changes one file and nothing else.  The path leads to this file afterwards, and
where any other path leads changes only if its way meets a name that was free.
-/

namespace Phrasebook
namespace Entry

/-- A node without what it holds if it is a directory. -/
def outline : Entry → Entry
  | .dir _ => .dir []
  | entry => entry

/-- What stands at a location, without what it holds if it is a directory. -/
def outlineAt (entry : Entry) (location : List String) : Option Entry :=
  (entry.at? location).map outline

variable {entry : Entry} {entries : List (String × Entry)} {name : String}
variable {directory location : List String} {content : Content}

theorem alike_of_outline {first second : Entry} (same : second.outline = first.outline) :
    Alike first second := by
  cases first <;> cases second <;> simp_all [outline, Alike]

/-- What is no directory is its own outline. -/
theorem outlineAt_eq_iff {found : Entry} (notDir : found.isDir = false) :
    entry.outlineAt location = some found ↔ entry.at? location = some found := by
  rw [outlineAt, Option.map_eq_some_iff]
  constructor
  · rintro ⟨other, held, rfl⟩
    cases other with
    | file content => exact held
    | link target => exact held
    | dir entries => cases notDir
  · intro held
    refine ⟨found, held, ?_⟩
    cases found with
    | file content => rfl
    | link target => rfl
    | dir entries => cases notDir

theorem exists_dir_of_outlineAt (shape : entry.outlineAt location = some (.dir [])) :
    ∃ entries, entry.at? location = some (.dir entries) := by
  obtain ⟨found, held, shape⟩ := Option.map_eq_some_iff.mp shape
  cases found with
  | file content => cases shape
  | link target => cases shape
  | dir entries => exact ⟨entries, held⟩

/-- Putting a file at a free name or over a file changes nothing at other locations. -/
theorem outlineAt_put (there : entry.at? directory = some (.dir entries))
    (writable : ∀ old, Table.get? entries name = some old → ∃ content, old = .file content)
    (different : location ≠ directory ++ [name]) :
    (entry.put (directory ++ [name]) (.file content)).outlineAt location =
      entry.outlineAt location := by
  induction directory generalizing entry location with
  | nil =>
      obtain rfl : entry = .dir entries := Option.some.inj there
      cases location with
      | nil => rfl
      | cons step rest =>
          simp only [outlineAt, List.nil_append, put, at?, Table.get?_insert]
          split
          · rename_i same
            subst same
            cases rest with
            | nil => exact absurd rfl different
            | cons below rest =>
                cases held : Table.get? entries name with
                | none => rfl
                | some old =>
                    obtain ⟨before, rfl⟩ := writable old held
                    rfl
          · rfl
  | cons step below ih =>
      cases entry with
      | dir above =>
          obtain ⟨inner, held, within⟩ := Option.bind_eq_some_iff.mp there
          cases location with
          | nil => rfl
          | cons first rest =>
              simp only [outlineAt, List.cons_append, put, at?, held, Option.getD_some,
                Table.get?_insert]
              split
              · rename_i same
                subst same
                rw [held]
                exact ih within fun equal => different (by rw [equal, List.cons_append])
              · rfl
      | _ => cases there

end Entry

namespace FileTree

open Entry

/-- What writing a content to the file at a location makes of a tree: the file is there, over
an older one or at a free name, and nothing else has changed. -/
structure Wrote (before after : FileTree) (location : List String) (content : Content) :
    Prop where
  here : after.here = before.here
  there : after.root.at? location = some (.file content)
  writable : ∀ entry, before.root.at? location = some entry → ∃ old, entry = .file old
  others : ∀ other, other ≠ location →
    after.root.outlineAt other = before.root.outlineAt other

variable {tree before after : FileTree} {path : Path} {content : Content}
variable {location start steps : List String} {step : String} {followLast : Bool}

theorem Wrote.grown (wrote : Wrote before after location content) : Grown before after where
  here := wrote.here
  root := by
    intro other entry held
    by_cases same : other = location
    · subst same
      obtain ⟨old, rfl⟩ := wrote.writable entry held
      exact ⟨.file content, wrote.there, trivial⟩
    · have shape := wrote.others other same
      rw [outlineAt, outlineAt, held, Option.map_some] at shape
      obtain ⟨later, found, equal⟩ := Option.map_eq_some_iff.mp shape
      exact ⟨later, found, alike_of_outline equal⟩

theorem wrote_putAt {directory : List String} {entries : List (String × Entry)} {name : String}
    (there : tree.root.at? directory = some (.dir entries))
    (writable : ∀ old, Table.get? entries name = some old → ∃ content, old = .file content) :
    Wrote tree (tree.putAt (directory ++ [name]) (.file content)) (directory ++ [name])
      content where
  here := rfl
  there := by
    have put : (tree.root.put (directory ++ [name]) (.file content)).at? directory = _ :=
      at?_put there
    rw [putAt, at?_append_singleton put, Table.get?_insert, if_pos rfl]
  writable := by
    intro entry held
    rw [at?_append_singleton there] at held
    exact writable entry held
  others := fun other different => outlineAt_put there writable different

/-- A file can be written over, wherever it is. -/
theorem wrote_putAt_of_file {old : Content} (held : tree.root.at? location = some (.file old)) :
    Wrote tree (tree.putAt location (.file content)) location content := by
  rcases List.eq_nil_or_concat location with rfl | ⟨directory, name, rfl⟩
  · obtain root : tree.root = .file old := Option.some.inj held
    refine ⟨rfl, rfl, fun entry same => ⟨old, Option.some.inj (same.symm.trans held)⟩, ?_⟩
    intro other different
    cases other with
    | nil => exact absurd rfl different
    | cons step rest => rw [root]; rfl
  · rw [List.concat_eq_append] at held ⊢
    rw [at?_append] at held
    obtain ⟨found, there, below⟩ := Option.bind_eq_some_iff.mp held
    cases found with
    | dir entries =>
        refine wrote_putAt there ?_
        intro entry inside
        have same : Table.get? entries name = some (.file old) := by simpa [at?] using below
        exact ⟨old, Option.some.inj (inside.symm.trans same)⟩
    | file content => cases below
    | link target => cases below

/-- Where a name of a directory leads, from what stands there. -/
def Move.into (location : List String) : Option Entry → Move
  | none => .free
  | some (.link target) => .link target
  | some _ => .on location

theorem move_of_not_dir (notDir : ∀ entries, tree.root.at? start ≠ some (.dir entries))
    (step : String) :
    tree.move start step =
      .stop (if step.utf8ByteSize > 255 then .nameTooLong else .notDirectory) := by
  unfold FileTree.move
  split
  · rfl
  · split
    · rename_i entries there
      exact absurd there (notDir entries)
    · rfl

/-- A name leads into what stands below a directory. -/
theorem move_of_dir (short : ¬ step.utf8ByteSize > 255) (notHere : ¬ (step = "" ∨ step = "."))
    (notUp : step ≠ "..") {entries : List (String × Entry)}
    (there : tree.root.at? start = some (.dir entries)) :
    tree.move start step =
      Move.into (start ++ [step]) (tree.root.outlineAt (start ++ [step])) := by
  rw [FileTree.move, if_neg short, there, outlineAt, at?_append_singleton there]
  simp only [if_neg notHere, if_neg notUp]
  cases Table.get? entries step with
  | none => rfl
  | some below => cases below <;> rfl

/-- From a location of a given shape, a step either leads the same way in every tree, and not to
a free name, or it leads into what stands below. -/
theorem move_cases (start : List String) (step : String) (shape : Option Entry) :
    (∃ fixed, fixed ≠ .free ∧
        ∀ tree : FileTree, tree.root.outlineAt start = shape → tree.move start step = fixed) ∨
      ∀ tree : FileTree, tree.root.outlineAt start = shape →
        tree.move start step =
          Move.into (start ++ [step]) (tree.root.outlineAt (start ++ [step])) := by
  have stops : ∀ error, Move.stop error ≠ .free := by simp
  by_cases long : step.utf8ByteSize > 255
  · exact .inl ⟨_, stops _, fun tree _ => by rw [FileTree.move, if_pos long]⟩
  · by_cases directory : shape = some (.dir [])
    · by_cases atStart : step = "" ∨ step = "."
      · refine .inl ⟨.on start, by simp, ?_⟩
        intro tree same
        obtain ⟨entries, there⟩ := exists_dir_of_outlineAt (same.trans directory)
        rw [FileTree.move, if_neg long, there]
        exact if_pos atStart
      · by_cases up : step = ".."
        · refine .inl ⟨.on start.dropLast, by simp, ?_⟩
          intro tree same
          obtain ⟨entries, there⟩ := exists_dir_of_outlineAt (same.trans directory)
          rw [FileTree.move, if_neg long, there]
          exact (if_neg atStart).trans (if_pos up)
        · right
          intro tree same
          obtain ⟨entries, there⟩ := exists_dir_of_outlineAt (same.trans directory)
          exact move_of_dir long atStart up there
    · refine .inl ⟨_, stops _, fun tree same => move_of_not_dir ?_ step⟩
      intro entries there
      rw [outlineAt, there] at same
      exact directory same.symm

/-- A step leads where it led before the writing, or now to the new file at a name that was
free. -/
theorem Wrote.move (wrote : Wrote before after location content) (start : List String)
    (step : String) :
    after.move start step = before.move start step ∧
        (after.move start step = .free → start ++ [step] ≠ location) ∨
      start ++ [step] = location ∧ before.move start step = .free ∧
        after.move start step = .on location := by
  by_cases atFile : start = location
  · have notDir : ∀ entries, before.root.at? start ≠ some (.dir entries) := by
      intro entries held
      obtain ⟨_, isFile⟩ := wrote.writable _ (atFile ▸ held)
      cases isFile
    have notDir' : ∀ entries, after.root.at? start ≠ some (.dir entries) := by
      rw [atFile, wrote.there]
      simp
    rw [move_of_not_dir notDir, move_of_not_dir notDir']
    exact .inl ⟨rfl, by simp⟩
  · have shape := wrote.others start atFile
    rcases move_cases start step (before.root.outlineAt start) with ⟨fixed, taken, leads⟩ | leads
    · rw [leads before rfl, leads after shape]
      exact .inl ⟨rfl, fun free => absurd free taken⟩
    · rw [leads before rfl, leads after shape]
      by_cases below : start ++ [step] = location
      · rw [below, (outlineAt_eq_iff rfl).mpr wrote.there]
        cases held : before.root.at? location with
        | none =>
            rw [outlineAt, held]
            exact .inr ⟨rfl, rfl, rfl⟩
        | some entry =>
            obtain ⟨old, rfl⟩ := wrote.writable entry held
            rw [(outlineAt_eq_iff rfl).mpr held]
            exact .inl ⟨rfl, by simp [Move.into]⟩
      · rw [wrote.others _ below]
        exact .inl ⟨rfl, fun _ => below⟩

/-! ## Paths after a writing -/

/-- How the writing at a location can change where a path leads: a name that was free is taken,
and a path that went on behind the free name fails, as it did before or in another way. -/
inductive Shifted (location : List String) :
    Except FileError Spot → Except FileError Spot → Prop where
  | same {result : Except FileError Spot}
      (elsewhere : ∀ directory name slashed, result = .ok (.free directory name slashed) →
        directory ++ [name] ≠ location) : Shifted location result result
  | taken {directory : List String} {name : String} (here : directory ++ [name] = location) :
      Shifted location (.ok (.free directory name false)) (.ok (.taken location))
  | refused {result : Except FileError Spot} {error : FileError}
      (notTaken : ∀ there, result ≠ .ok (.taken there))
      (notFree : ∀ directory name, result ≠ .ok (.free directory name false)) :
      Shifted location result (.error error)

theorem Wrote.walk (wrote : Wrote before after location content) {followLast : Bool}
    {onLink onLink' : List String → List String → Except FileError Spot}
    (links : ∀ start steps, Shifted location (onLink start steps) (onLink' start steps))
    (start steps : List String) :
    Shifted location (before.walk followLast onLink start steps)
      (after.walk followLast onLink' start steps) := by
  induction steps generalizing start with
  | nil => exact .same (by simp [FileTree.walk])
  | cons step rest ih =>
      rw [walk_cons, walk_cons]
      rcases wrote.move start step with ⟨same, elsewhere⟩ | ⟨below, free, on⟩
      · rw [same] at elsewhere ⊢
        cases moved : before.move start step with
        | stop error => exact .same (by simp)
        | on next => exact ih next
        | free =>
            dsimp only
            split
            · refine .same ?_
              intro directory name slashed equal
              obtain ⟨rfl, rfl, _⟩ := Spot.free.inj (Except.ok.inj equal)
              exact elsewhere moved
            · exact .same (by simp)
        | link target =>
            dsimp only
            split
            · exact .same (by simp)
            · exact links _ _
      · rw [free, on]
        cases rest with
        | nil => exact .taken below
        | cons next more =>
            -- What went on behind the free name now meets a file there.
            have notDir : ∀ entries, after.root.at? location ≠ some (.dir entries) := by
              rw [wrote.there]
              simp
            dsimp only
            rw [walk_cons, move_of_not_dir notDir]
            refine .refused ?_ ?_
            · intro there
              split <;> simp
            · intro directory name
              split <;> simp

theorem Wrote.resolveFrom (wrote : Wrote before after location content) (followLast : Bool)
    (links : Nat) (start steps : List String) :
    Shifted location (before.resolveFrom followLast links start steps)
      (after.resolveFrom followLast links start steps) := by
  induction links generalizing start steps with
  | zero => exact wrote.walk (fun _ _ => .same (by simp)) start steps
  | succ links ih => exact wrote.walk ih start steps

theorem Wrote.resolve (wrote : Wrote before after location content) (path : Path)
    (followLast : Bool) :
    Shifted location (before.resolve path followLast) (after.resolve path followLast) := by
  unfold FileTree.resolve resolveBy
  rw [wrote.here]
  split
  · exact .same (by simp)
  · split
    · exact .same (by simp)
    · split
      · exact .same (by simp)
      · exact wrote.resolveFrom ..

/-- What a path leads to after the writing is the new file, or it led there before. -/
theorem Wrote.taken_cases (wrote : Wrote before after location content) {there : List String}
    (leads : after.resolve path followLast = .ok (.taken there)) :
    there = location ∨ before.resolve path followLast = .ok (.taken there) := by
  have shifted := wrote.resolve path followLast
  rw [leads] at shifted
  generalize before.resolve path followLast = old at shifted ⊢
  cases shifted with
  | same _ => exact .inr rfl
  | taken _ => exact .inl rfl

section
variable {directory : List String} {name : String} {slashed : Bool}

/-- A name is free in a directory that does not have it. -/
theorem exists_dir_of_free (free : tree.move directory name = .free) :
    ∃ entries, tree.root.at? directory = some (.dir entries) ∧
      Table.get? entries name = none := by
  cases moves_of_eq free with
  | free _ there absent => exact ⟨_, there, absent⟩

theorem free_of_walk {onLink : List String → List String → Except FileError Spot}
    (links : ∀ start steps, onLink start steps = .ok (.free directory name slashed) →
      tree.move directory name = .free)
    (leads : tree.walk followLast onLink start steps = .ok (.free directory name slashed)) :
    tree.move directory name = .free := by
  induction steps generalizing start with
  | nil => cases leads
  | cons step rest ih =>
      rw [walk_cons] at leads
      cases moved : tree.move start step with
      | stop error => simp [moved] at leads
      | on next =>
          rw [moved] at leads
          exact ih leads
      | free =>
          simp only [moved] at leads
          split at leads
          · obtain ⟨rfl, rfl, _⟩ := Spot.free.inj (Except.ok.inj leads)
            exact moved
          · cases leads
      | link target =>
          simp only [moved] at leads
          split at leads
          · cases leads
          · exact links _ _ leads

theorem free_of_resolveFrom {links : Nat}
    (leads : tree.resolveFrom followLast links start steps =
      .ok (.free directory name slashed)) : tree.move directory name = .free := by
  induction links generalizing start steps with
  | zero => exact free_of_walk (by simp) leads
  | succ links ih => exact free_of_walk (fun _ _ => ih) leads

/-- A path that leads to a free name leads to one in a directory that does not have it. -/
theorem free_of_resolve
    (leads : tree.resolve path followLast = .ok (.free directory name slashed)) :
    tree.move directory name = .free := by
  unfold FileTree.resolve resolveBy at leads
  split at leads
  · cases leads
  · split at leads
    · cases leads
    · split at leads
      · cases leads
      · exact free_of_resolveFrom leads

end

/-- A writing puts the content into one file, and the path leads there afterwards. -/
theorem exists_wrote (written : tree.write path content = .ok after) :
    ∃ location, Wrote tree after location content ∧
      after.resolve path true = .ok (.taken location) := by
  unfold FileTree.write at written
  cases leads : tree.resolve path true with
  | error error =>
      rw [leads] at written
      cases written
  | ok spot =>
      rw [leads] at written
      simp only [bind, Except.bind] at written
      cases spot with
      | taken location =>
          dsimp only at written
          split at written
          · rename_i old held
            obtain rfl := Except.ok.inj written
            have wrote : Wrote tree (tree.putAt location (.file content)) location content :=
              wrote_putAt_of_file held
            exact ⟨location, wrote, resolve_of_grown wrote.grown leads⟩
          · cases written
          · cases written
      | free directory name slashed =>
          dsimp only at written
          split at written
          · cases written
          · rename_i plain
            obtain rfl := Except.ok.inj written
            obtain ⟨entries, there, absent⟩ := exists_dir_of_free (free_of_resolve leads)
            have wrote : Wrote tree (tree.putAt (directory ++ [name]) (.file content))
                (directory ++ [name]) content :=
              wrote_putAt there (by simp [absent])
            refine ⟨directory ++ [name], wrote, ?_⟩
            have shifted := wrote.resolve path true
            rw [leads] at shifted
            generalize FileTree.resolve _ path true = result at shifted ⊢
            cases shifted with
            | same elsewhere => exact absurd rfl (elsewhere _ _ _ rfl)
            | taken _ => rfl
            | refused _ notFree =>
                rw [Bool.not_eq_true] at plain
                exact absurd (by rw [plain]) (notFree directory name)

/-- The file that was written is read at its path. -/
theorem entry_of_write (written : tree.write path content = .ok after) :
    after.entry path = .ok (.file content) := by
  obtain ⟨location, wrote, leads⟩ := exists_wrote written
  exact entry_eq_ok_iff.mpr ⟨location, leads, wrote.there⟩

end FileTree
end Phrasebook
