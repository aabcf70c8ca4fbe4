import Phrasebook.Proofs.FileTree.Directory

/-!
# Paths to one node

Several paths can lead to the same node.  A file that was written is read at each path to it, and
every other path leads to as much as before.  Different names in a directory lead to different
nodes, unless there is a link among them.
-/

namespace Phrasebook
namespace FileTree

open Entry Phrasebook.Path

variable {tree before after : FileTree} {path other : Path} {content : Content}
variable {location : List String}

theorem readText_of_entry {text : String} (leads : tree.entry path = .ok (.file (.text text))) :
    tree.readText path = .ok text := by
  rw [readText, leads]

theorem readText_eq_ok_iff {text : String} :
    tree.readText path = .ok text ↔ tree.entry path = .ok (.file (.text text)) := by
  refine ⟨?_, readText_of_entry⟩
  intro read
  unfold readText at read
  split at read
  · rename_i leads
    rw [leads, Except.ok.inj read]
  · cases read
  · cases read
  · cases read

theorem names_eq_ok_iff {names : List String} :
    tree.names path = .ok names ↔
      ∃ entries, tree.entry path = .ok (.dir entries) ∧ names = Table.names entries := by
  unfold FileTree.names
  cases tree.entry path with
  | error error => simp
  | ok entry => cases entry <;> simp [eq_comm]

/-- Whether two paths lead to the same node. -/
def sameNode (tree : FileTree) (path other : Path) : Bool :=
  match tree.resolve path true, tree.resolve other true with
  | .ok (.taken location), .ok (.taken there) => location == there
  | _, _ => false

theorem sameNode_iff :
    tree.sameNode path other = true ↔
      ∃ location, tree.resolve path true = .ok (.taken location) ∧
        tree.resolve other true = .ok (.taken location) := by
  unfold sameNode
  split
  · rename_i location there left right
    rw [left, right, beq_iff_eq]
    constructor
    · rintro rfl
      exact ⟨location, rfl, rfl⟩
    · rintro ⟨both, first, second⟩
      cases first
      cases second
      rfl
  · rename_i notBoth
    constructor
    · intro impossible
      cases impossible
    · rintro ⟨location, left, right⟩
      exact absurd right (notBoth location location left)

theorem sameNode_self (leads : tree.resolve path true = .ok (.taken location)) :
    tree.sameNode path path = true :=
  sameNode_iff.mpr ⟨location, leads, leads⟩

theorem sameNode_of_grown (grown : Grown before after)
    (same : before.sameNode path other = true) : after.sameNode path other = true := by
  obtain ⟨location, left, right⟩ := sameNode_iff.mp same
  exact sameNode_iff.mpr ⟨location, resolve_of_grown grown left, resolve_of_grown grown right⟩

/-- A path leads to something in both of two trees or in neither, and to a file with the same
content in both or in neither. -/
structure SameAt (before after : FileTree) (path : Path) : Prop where
  pathExists : after.pathExists path = before.pathExists path
  content : ∀ content, after.entry path = .ok (.file content) ↔
    before.entry path = .ok (.file content)

theorem SameAt.refl (tree : FileTree) (path : Path) : SameAt tree tree path :=
  ⟨rfl, fun _ => Iff.rfl⟩

theorem SameAt.trans {first second third : FileTree} (left : SameAt first second path)
    (right : SameAt second third path) : SameAt first third path :=
  ⟨right.pathExists.trans left.pathExists,
    fun content => (right.content content).trans (left.content content)⟩

/-- A path that leads to the node of a file, and to as much as before, leads to its content. -/
theorem entry_of_sameNode (grown : Grown before after)
    (held : before.entry path = .ok (.file content)) (same : after.sameNode path other = true)
    (kept : SameAt before after other) : after.entry other = .ok (.file content) := by
  obtain ⟨location, leads, there⟩ := entry_eq_ok_iff.mp held
  obtain ⟨there', left, right⟩ := sameNode_iff.mp same
  obtain rfl : location = there' := by
    simpa using (resolve_of_grown grown leads).symm.trans left
  obtain ⟨later, found, alike⟩ := grown.root location _ there
  cases later with
  | file content' =>
      have now : after.entry other = .ok (.file content') :=
        entry_eq_ok_iff.mpr ⟨location, right, found⟩
      obtain ⟨origin, stood, old⟩ := entry_eq_ok_iff.mp ((kept.content content').mp now)
      obtain rfl : location = origin := by
        simpa using right.symm.trans (resolve_of_grown grown stood)
      rw [now, ← Option.some.inj (there.symm.trans old)]
  | link target => cases alike
  | dir entries => cases alike

theorem pathExists_iff : tree.pathExists path = true ↔ ∃ entry, tree.entry path = .ok entry := by
  unfold FileTree.pathExists
  cases tree.entry path with
  | error error => simp [Except.isOk, Except.toBool]
  | ok entry => simp [Except.isOk, Except.toBool]

/-- Writing to a path changes nothing at a path that does not lead to the written file. -/
theorem sameAt_of_write (written : tree.write path content = .ok after)
    (apart : after.sameNode path other = false) : SameAt tree after other := by
  obtain ⟨location, wrote, leads⟩ := exists_wrote written
  have elsewhere : ∀ there, after.resolve other true = .ok (.taken there) → there ≠ location := by
    rintro there found rfl
    rw [sameNode_iff.mpr ⟨there, leads, found⟩] at apart
    cases apart
  -- Both trees have the same outline at the location that the path leads to in one of them.
  have back : ∀ there, after.resolve other true = .ok (.taken there) →
      tree.resolve other true = .ok (.taken there) ∧
        after.root.outlineAt there = tree.root.outlineAt there := fun there found =>
    ⟨(wrote.taken_cases found).resolve_left (elsewhere there found),
      wrote.others there (elsewhere there found)⟩
  constructor
  · rw [Bool.eq_iff_iff, pathExists_iff, pathExists_iff]
    constructor
    · rintro ⟨entry, found⟩
      obtain ⟨there, resolved, held⟩ := entry_eq_ok_iff.mp found
      obtain ⟨before, shape⟩ := back there resolved
      rw [outlineAt, outlineAt, held] at shape
      obtain ⟨old, stood, _⟩ := Option.map_eq_some_iff.mp shape.symm
      exact ⟨old, entry_eq_ok_iff.mpr ⟨there, before, stood⟩⟩
    · rintro ⟨entry, found⟩
      obtain ⟨later, found, _⟩ := entry_of_grown wrote.grown found
      exact ⟨later, found⟩
  · intro held
    rw [entry_eq_ok_iff, entry_eq_ok_iff]
    constructor
    · rintro ⟨there, resolved, stands⟩
      obtain ⟨before, shape⟩ := back there resolved
      refine ⟨there, before, ?_⟩
      rwa [← outlineAt_eq_iff rfl, ← shape, outlineAt_eq_iff rfl]
    · rintro ⟨there, resolved, stood⟩
      have later := resolve_of_grown wrote.grown resolved
      refine ⟨there, later, ?_⟩
      rwa [← outlineAt_eq_iff rfl, (back there later).2, outlineAt_eq_iff rfl]

/-- Whether a link stands at a path. -/
def isLink (tree : FileTree) (path : Path) : Bool :=
  match tree.entryItself path with
  | .ok (.link _) => true
  | _ => false

theorem isLink_iff :
    tree.isLink path = true ↔ ∃ target, tree.entryItself path = .ok (.link target) := by
  unfold isLink
  split
  · rename_i target found
    exact iff_of_true rfl ⟨target, found⟩
  · rename_i noLink
    refine iff_of_false Bool.false_ne_true ?_
    rintro ⟨target, found⟩
    exact noLink target found

/-- Writing makes no links. -/
theorem isLink_of_write (written : tree.write path content = .ok after)
    (link : after.isLink other = true) : tree.isLink other = true := by
  obtain ⟨location, wrote, _⟩ := exists_wrote written
  obtain ⟨target, found⟩ := isLink_iff.mp link
  obtain ⟨there, resolved, held⟩ := entryItself_eq_ok_iff.mp found
  have elsewhere : there ≠ location := by
    rintro rfl
    rw [wrote.there] at held
    cases held
  refine isLink_iff.mpr ⟨target, entryItself_eq_ok_iff.mpr ⟨there, ?_, ?_⟩⟩
  · exact (wrote.taken_cases resolved).resolve_left elsewhere
  · rwa [← outlineAt_eq_iff rfl, ← wrote.others there elsewhere, outlineAt_eq_iff rfl]

/-- Where a plain name of a directory leads, unless a link stands there, is a location that ends
in the name. -/
theorem getLast?_of_resolve {dir : Path} {name : String} (plain : Plain name.toList)
    (noLink : tree.isLink (dir.join ⟨name⟩) = false)
    (leads : tree.resolve (dir.join ⟨name⟩) true = .ok (.taken location)) :
    location.getLast? = some name := by
  have sound := sound_of_resolve leads
  rw [resolve_join plain sound] at leads
  obtain ⟨named, notHere, notUp⟩ := ne_of_plain plain
  obtain ⟨directory, taken⟩ := taken_of_resolveFrom named leads
  obtain ⟨left, onward⟩ := resolveFrom_append true taken
  rw [onward] at leads
  obtain ⟨short, entries, there⟩ := dir_of_resolveFrom leads
  have moved := move_of_dir (Nat.not_lt.mpr short) (not_or.mpr ⟨named, notHere⟩) notUp there
  cases held : tree.root.outlineAt (directory ++ [name]) with
  | none =>
      rw [held] at moved
      rw [resolveFrom_of_free moved] at leads
      cases leads
  | some entry =>
      rw [held] at moved
      cases entry with
      | link target =>
          obtain ⟨left, onward⟩ := resolveFrom_append false taken
          obtain ⟨onLink, single⟩ := resolveFrom_eq_walk tree false left
          have itself : tree.resolve (dir.join ⟨name⟩) false =
              .ok (.taken (directory ++ [name])) := by
            rw [resolve_join plain sound, onward, single, walk_cons, moved]
            rfl
          have link : tree.isLink (dir.join ⟨name⟩) = true :=
            isLink_iff.mpr ⟨target, entryItself_eq_ok_iff.mpr
              ⟨_, itself, (outlineAt_eq_iff rfl).mp held⟩⟩
          rw [noLink] at link
          cases link
      | file content =>
          rw [resolveFrom_of_on moved] at leads
          cases leads
          simp
      | dir entries =>
          rw [resolveFrom_of_on moved] at leads
          cases leads
          simp

/-- Different names in a directory lead to different nodes, if they are no links. -/
theorem eq_of_sameNode {dir : Path} {name another : String} (plain : Plain name.toList)
    (noLink : tree.isLink (dir.join ⟨name⟩) = false) (plain' : Plain another.toList)
    (noLink' : tree.isLink (dir.join ⟨another⟩) = false)
    (same : tree.sameNode (dir.join ⟨name⟩) (dir.join ⟨another⟩) = true) : name = another := by
  obtain ⟨location, left, right⟩ := sameNode_iff.mp same
  have first := getLast?_of_resolve plain noLink left
  have second := getLast?_of_resolve plain' noLink' right
  exact Option.some.inj (first.symm.trans second)

end FileTree
end Phrasebook
