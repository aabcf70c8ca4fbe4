import Mathlib.Data.List.Induction
import Phrasebook.Proofs.FileTree.Aliases

/-!
# The last place of a path

What stands in the last place of a path is what the path leads to, unless a link stands there.  A
path that leads to a file ends in a plain name: a slash, a point or two points at its end would lead
to a directory.
-/

namespace Phrasebook
namespace FileTree

open Phrasebook.Path

variable {tree : FileTree} {path : Path} {start steps location : List String} {step target : String}

theorem at?_of_link (moved : tree.move location step = .link target) :
    tree.root.at? (location ++ [step]) = some (.link target) := by
  cases moves_of_eq moved with
  | link _ there held => rw [Entry.at?_append_singleton there, held]

/-- Whether a path led to a node that is a link. -/
def AtLink (tree : FileTree) (answer : Except FileError Spot) : Prop :=
  ∃ location target, answer = .ok (.taken location) ∧
    tree.root.at? location = some (.link target)

theorem walk_eq_or_atLink {onLink onLink' : List String → List String → Except FileError Spot}
    (jumps : ∀ start steps, onLink start steps = onLink' start steps ∨
      tree.AtLink (onLink' start steps)) :
    tree.walk true onLink start steps = tree.walk false onLink' start steps ∨
      tree.AtLink (tree.walk false onLink' start steps) := by
  induction steps generalizing start with
  | nil => exact .inl rfl
  | cons step rest ih =>
      rw [walk_cons, walk_cons]
      cases moved : tree.move start step with
      | stop error => exact .inl rfl
      | free => exact .inl rfl
      | on next => exact ih
      | link target =>
          dsimp only
          by_cases last : rest = []
          · refine .inr ⟨start ++ [step], target, ?_, at?_of_link moved⟩
            rw [if_pos ⟨last, rfl⟩]
          · have followed : ∀ stays : Prop, ¬ (rest = [] ∧ stays) := fun _ both => last both.1
            rw [if_neg (followed _), if_neg (followed _)]
            exact jumps _ _

/-- A link in the last place is the only thing by which following it makes a difference. -/
theorem resolve_eq_or_atLink (tree : FileTree) (path : Path) :
    tree.resolve path true = tree.resolve path false ∨
      tree.AtLink (tree.resolve path false) := by
  have further : ∀ links start steps,
      tree.resolveFrom true links start steps = tree.resolveFrom false links start steps ∨
        tree.AtLink (tree.resolveFrom false links start steps) := by
    intro links
    induction links with
    | zero => exact fun _ _ => walk_eq_or_atLink fun _ _ => .inl rfl
    | succ links ih => exact fun _ _ => walk_eq_or_atLink ih
  unfold resolve resolveBy
  split
  · exact .inl rfl
  · split
    · exact .inl rfl
    · split
      · exact .inl rfl
      · exact further _ _ _

theorem entry_eq_entryItself (noLink : tree.isLink path = false) :
    tree.entry path = tree.entryItself path := by
  rcases tree.resolve_eq_or_atLink path with same | ⟨location, target, leads, there⟩
  · unfold entry entryItself locate
    rw [same]
  · have link : tree.isLink path = true :=
      isLink_iff.mpr ⟨target, entryItself_eq_ok_iff.mpr ⟨location, leads, there⟩⟩
    rw [noLink] at link
    cases link

theorem isFile_iff :
    tree.isFile path = true ↔ ∃ content, tree.entry path = .ok (.file content) := by
  unfold isFile
  cases tree.entry path with
  | error error => simp
  | ok entry => cases entry <;> simp [Entry.isFile]

theorem isDir_iff : tree.isDir path = true ↔ ∃ entries, tree.entry path = .ok (.dir entries) := by
  unfold isDir
  cases tree.entry path with
  | error error => simp
  | ok entry => cases entry <;> simp [Entry.isDir]

/-- Whether a path is the spelling of a file, or of a link that leads to one. -/
def SpellsFile (tree : FileTree) (path : Path) : Prop :=
  (∃ content, tree.entryItself path = .ok (.file content)) ∨
    ∃ target content, tree.entryItself path = .ok (.link target) ∧
      tree.entry path = .ok (.file content)

theorem isFile_iff_spellsFile : tree.isFile path = true ↔ tree.SpellsFile path := by
  rw [isFile_iff]
  cases link : tree.isLink path with
  | false =>
      rw [entry_eq_entryItself link]
      refine ⟨.inl, ?_⟩
      rintro (file | ⟨target, content, itself, _⟩)
      · exact file
      · rw [isLink_iff.mpr ⟨target, itself⟩] at link
        cases link
  | true =>
      obtain ⟨target, itself⟩ := isLink_iff.mp link
      constructor
      · rintro ⟨content, leads⟩
        exact .inr ⟨target, content, itself, leads⟩
      · rintro (⟨content, file⟩ | ⟨_, content, _, leads⟩)
        · rw [itself] at file
          cases file
        · exact ⟨content, leads⟩

theorem exists_dir_dropLast {entries : List (String × Entry)}
    (there : tree.root.at? location = some (.dir entries)) :
    ∃ others, tree.root.at? location.dropLast = some (.dir others) := by
  rcases List.eq_nil_or_concat location with rfl | ⟨front, name, rfl⟩
  · exact ⟨entries, there⟩
  · rw [List.concat_eq_append] at there ⊢
    rw [Entry.at?_append] at there
    obtain ⟨above, found, below⟩ := Option.bind_eq_some_iff.mp there
    rw [List.dropLast_concat, found]
    cases above with
    | dir others => exact ⟨others, rfl⟩
    | file content => cases below
    | link target => cases below

theorem exists_dir_of_move (turn : IsTurn step) (moved : tree.move start step = .on location) :
    ∃ entries, tree.root.at? location = some (.dir entries) := by
  cases moves_of_eq moved with
  | here _ there => exact ⟨_, there⟩
  | up _ there => exact exists_dir_dropLast there
  | below named _ _ => exact absurd turn named

theorem move_ne_link (turn : IsTurn step) : tree.move start step ≠ .link target := by
  intro moved
  cases moves_of_eq moved with
  | link named _ _ => exact named turn

theorem dir_of_walk_of_turn {onLink : List String → List String → Except FileError Spot}
    (turn : IsTurn step)
    (jumps : ∀ start steps, onLink start (steps ++ [step]) = .ok (.taken location) →
      ∃ entries, tree.root.at? location = some (.dir entries))
    (leads : tree.walk true onLink start (steps ++ [step]) = .ok (.taken location)) :
    ∃ entries, tree.root.at? location = some (.dir entries) := by
  induction steps generalizing start with
  | nil =>
      rcases walk_true_cons_eq_taken_iff.mp leads with ⟨next, moved, leads⟩ | ⟨target, moved, _⟩
      · cases leads
        exact exists_dir_of_move turn moved
      · exact absurd moved (move_ne_link turn)
  | cons first rest ih =>
      rw [List.cons_append] at leads
      rcases walk_true_cons_eq_taken_iff.mp leads with ⟨next, _, leads⟩ | ⟨target, _, leads⟩
      · exact ih leads
      · rw [← List.append_assoc] at leads
        exact jumps _ _ leads

theorem dir_of_resolveFrom_of_turn {links : Nat} (turn : IsTurn step)
    (leads : tree.resolveFrom true links start (steps ++ [step]) = .ok (.taken location)) :
    ∃ entries, tree.root.at? location = some (.dir entries) := by
  induction links generalizing start steps with
  | zero => exact dir_of_walk_of_turn turn (by simp) leads
  | succ links ih => exact dir_of_walk_of_turn turn (fun _ _ => ih) leads

/-- The last text between slashes is all of the text or stands behind a slash. -/
theorem exists_split_append (text : List Char) :
    ∃ above name, split text = above ++ [name] ∧
      (text = name ∨ ∃ front, text = front ++ '/' :: name) := by
  have ending : ∃ name, '/' ∉ name ∧ (text = name ∨ ∃ front, text = front ++ '/' :: name) := by
    induction text using List.reverseRecOn with
    | nil => exact ⟨[], by simp, .inl rfl⟩
    | append_singleton text c ih =>
        by_cases slash : c = '/'
        · exact ⟨[], by simp, .inr ⟨text, by rw [slash]⟩⟩
        · obtain ⟨name, noSlash, whole⟩ := ih
          refine ⟨name ++ [c], by simp [noSlash, Ne.symm slash], ?_⟩
          rcases whole with rfl | ⟨front, rfl⟩
          · exact .inl rfl
          · exact .inr ⟨front, by simp⟩
  obtain ⟨name, noSlash, rfl | ⟨front, rfl⟩⟩ := ending
  · exact ⟨[], text, split_of_not_mem noSlash, .inl rfl⟩
  · refine ⟨split front, name, ?_, .inr ⟨front, rfl⟩⟩
    rw [split_append_slash, split_of_not_mem noSlash]

/-- A path that leads to a file ends in a plain name. -/
theorem exists_name_of_isFile (isFile : tree.isFile path = true) :
    ∃ above name, Plain name ∧ split path.text.toList = above ++ [name] ∧
      (path.text.toList = name ∨ ∃ front, path.text.toList = front ++ '/' :: name) := by
  obtain ⟨content, leads⟩ := isFile_iff.mp isFile
  obtain ⟨location, resolved, there⟩ := entry_eq_ok_iff.mp leads
  have sound := sound_of_resolve resolved
  rw [resolve_of_sound sound] at resolved
  have straight : ∀ front last, FileTree.steps path.text = front ++ [last] → ¬ IsTurn last := by
    intro front last equal turn
    rw [equal] at resolved
    obtain ⟨entries, dir⟩ := dir_of_resolveFrom_of_turn turn resolved
    rw [there] at dir
    cases dir
  obtain ⟨above, name, divided, whole⟩ := exists_split_append path.text.toList
  have notEnded : path.text.toList.getLast? ≠ some '/' := fun ended =>
    straight _ "" (if_pos ended) (.inl rfl)
  have nonempty : name ≠ [] := by
    rintro rfl
    rcases whole with nowhere | ⟨front, ended⟩
    · exact sound.somewhere (String.toList_eq_nil_iff.mp nowhere)
    · exact notEnded (by simp [ended])
  have last : FileTree.steps path.text =
      (above.filter (· ≠ [])).map String.ofList ++ [String.ofList name] := by
    rw [FileTree.steps, if_neg notEnded, pieces, divided]
    simp [nonempty]
  have noTurn := straight _ _ last
  simp only [IsTurn, not_or] at noTurn
  refine ⟨above, name, ⟨nonempty, ?_, ?_, ?_⟩, divided, whole⟩
  · exact not_mem_of_mem_split (divided ▸ List.mem_append_right _ (List.mem_singleton.mpr rfl))
  · rintro rfl
    exact noTurn.2.1 rfl
  · rintro rfl
    exact noTurn.2.2 rfl

end FileTree
end Phrasebook
