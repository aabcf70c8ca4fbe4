import Phrasebook.Proofs.FileTree.Aliases
import Phrasebook.Proofs.Locales.Writing

/-!
# What written files hold

Files are written one after the other, and some of their paths may lead to the same node.  After
the writing a path leads to what was written last to its node, or to as much as before.
-/

namespace Phrasebook.LocaleFiles

open Json FileTree

variable {tree after : FileTree} {path : Path} {files : List (Path × Value)}

/-- What was written last to the node that a path leads to. -/
def lastWritten (tree : FileTree) (files : List (Path × Value)) (path : Path) : Option Value :=
  ((files.filter fun file => tree.sameNode file.1 path).getLast?).map Prod.snd

/-- A path leads to a file with the value that was written there, or to as much as before. -/
def Holds (before after : FileTree) (path : Path) : Option Value → Prop
  | some value => after.entry path = .ok (.file (.text (fileText value)))
  | none => SameAt before after path

theorem lastWritten_cons (tree : FileTree) (file : Path × Value) (rest : List (Path × Value))
    (path : Path) :
    lastWritten tree (file :: rest) path =
      (lastWritten tree rest path).or
        (if tree.sameNode file.1 path then some file.2 else none) := by
  unfold lastWritten
  rw [List.filter_cons]
  split
  · rw [List.getLast?_cons]
    cases (rest.filter fun file => tree.sameNode file.1 path).getLast? <;> rfl
  · rw [Option.or_none]

/-- Writing files without an error leaves every tree grown. -/
theorem grown_of_writeAll (written : writeAll tree files = (after, .ok ())) : Grown tree after := by
  induction files generalizing tree with
  | nil =>
      obtain rfl : tree = after := congrArg Prod.fst written
      exact Grown.refl tree
  | cons file rest ih =>
      obtain ⟨middle, wrote, written⟩ := exists_write_of_writeAll written
      obtain ⟨location, put, _⟩ := exists_wrote wrote
      exact put.grown.trans (ih written)

theorem holds_lastWritten (written : writeAll tree files = (after, .ok ())) (path : Path) :
    Holds tree after path (lastWritten after files path) := by
  induction files generalizing tree with
  | nil =>
      obtain rfl : tree = after := congrArg Prod.fst written
      exact SameAt.refl tree path
  | cons file rest ih =>
      obtain ⟨middle, wrote, written⟩ := exists_write_of_writeAll written
      have later := ih written
      have grown := grown_of_writeAll written
      rw [lastWritten_cons]
      cases last : lastWritten after rest path with
      | some value =>
          rw [last] at later
          exact later
      | none =>
          -- Nothing else was written there since this file was.
          rw [last] at later
          rw [Option.none_or]
          split
          · rename_i same
            exact entry_of_sameNode grown (entry_of_write wrote) same later
          · rename_i apart
            have before : middle.sameNode file.1 path = false := by
              cases same : middle.sameNode file.1 path with
              | false => rfl
              | true => exact absurd (sameNode_of_grown grown same) apart
            exact (sameAt_of_write wrote before).trans later

/-- Every path that was written leads to a node. -/
theorem taken_of_writeAll (written : writeAll tree files = (after, .ok ())) :
    ∀ file ∈ files, ∃ location, after.resolve file.1 true = .ok (.taken location) := by
  induction files generalizing tree with
  | nil => simp
  | cons file rest ih =>
      obtain ⟨middle, wrote, onward⟩ := exists_write_of_writeAll written
      intro other member
      rcases List.mem_cons.mp member with rfl | member
      · obtain ⟨location, _, leads⟩ := exists_wrote wrote
        exact ⟨location, resolve_of_grown (grown_of_writeAll onward) leads⟩
      · exact ih onward other member

/-- Writing files makes no links. -/
theorem isLink_of_writeAll (written : writeAll tree files = (after, .ok ()))
    (link : after.isLink path = true) : tree.isLink path = true := by
  induction files generalizing tree with
  | nil =>
      obtain rfl : tree = after := congrArg Prod.fst written
      exact link
  | cons file rest ih =>
      obtain ⟨middle, wrote, written⟩ := exists_write_of_writeAll written
      exact isLink_of_write wrote (ih written)

/-- What was written last of all is what was written last at its path. -/
theorem lastWritten_concat {front : List (Path × Value)} {value : Value}
    (written : writeAll tree (front ++ [(path, value)]) = (after, .ok ())) :
    lastWritten after (front ++ [(path, value)]) path = some value := by
  obtain ⟨location, leads⟩ := taken_of_writeAll written (path, value) (by simp)
  rw [lastWritten, List.filter_append, List.filter_cons, if_pos (sameNode_self leads)]
  simp

/-- Where no links stand, what was written last at the path of a locale is the last file that was
written for this locale. -/
theorem lastWritten_localeFile {dir : Path} {values : List (String × Value)} {locale : String}
    (written : writeAll tree (values.map fun file => (localeFile dir file.1, file.2)) =
      (after, .ok ()))
    (named : ∀ file ∈ values, Path.Names file.1) (names : Path.Names locale)
    (noLinks : ∀ file ∈ values, tree.isLink (localeFile dir file.1) = false)
    (noLink : tree.isLink (localeFile dir locale) = false) :
    lastWritten after (values.map fun file => (localeFile dir file.1, file.2))
        (localeFile dir locale) =
      ((values.filter fun file => file.1 = locale).getLast?).map Prod.snd := by
  have still : ∀ path, tree.isLink path = false → after.isLink path = false := by
    intro path before
    rw [← Bool.not_eq_true] at before ⊢
    exact mt (isLink_of_writeAll written) before
  have same : ∀ file ∈ values,
      after.sameNode (localeFile dir file.1) (localeFile dir locale) =
        decide (file.1 = locale) := by
    intro file member
    rw [Bool.eq_iff_iff, decide_eq_true_iff]
    constructor
    · intro together
      have equal : file.1 ++ ".json" = locale ++ ".json" :=
        eq_of_sameNode (named file member).plain (still _ (noLinks file member)) names.plain
          (still _ noLink) together
      simpa [← String.toList_inj] using equal
    · rintro rfl
      obtain ⟨location, leads⟩ := taken_of_writeAll written _ (List.mem_map_of_mem member)
      exact sameNode_self leads
  rw [lastWritten, List.filter_map, List.getLast?_map, Option.map_map]
  simp only [Function.comp_def]
  rw [List.filter_congr same]

/-- The files of one writing, in their order. -/
def writtenFiles (dir : Path) (outputs untranslated : List (String × Value)) :
    List (Path × Value) :=
  (fileValues outputs untranslated).map fun file => (localeFile dir file.1, file.2)

section
variable {dir : Path} {outputs untranslated : List (String × Value)} {listed : WrittenFiles}
variable (wrote : (write tree dir outputs untranslated).2 = .ok listed)
include wrote

theorem holds_of_write (path : Path) :
    Holds (tree.createDirs dir).1 (write tree dir outputs untranslated).1 path
      (lastWritten (write tree dir outputs untranslated).1
        (writtenFiles dir outputs untranslated) path) :=
  holds_lastWritten (writeAll_of_write wrote) path

/-- A report that has something is written last, over whatever was there. -/
theorem readText_reportFile (reported : untranslated ≠ []) :
    (write tree dir outputs untranslated).1.readText (reportFile dir) =
      .ok (fileText (.object untranslated)) := by
  have written := writeAll_of_write wrote
  have holds := holds_lastWritten written (reportFile dir)
  rw [fileValues, if_neg reported, List.map_append, List.map_singleton] at written holds
  have last := lastWritten_concat written
  rw [show localeFile dir reportLocale = reportFile dir from rfl] at written holds last
  rw [last] at holds
  exact readText_of_entry holds

variable (named : ∀ entry ∈ outputs, Path.Names entry.1)
variable (noLinks : ∀ locale ∈ reportLocale :: outputs.map Prod.fst,
  (tree.createDirs dir).1.isLink (localeFile dir locale) = false)
include named noLinks

/-- Where no links stand, the file of a locale holds what was written last for this locale. -/
theorem holds_of_noLinks {locale : String} (known : locale ∈ reportLocale :: outputs.map Prod.fst) :
    Holds (tree.createDirs dir).1 (write tree dir outputs untranslated).1 (localeFile dir locale)
      (((fileValues outputs untranslated).filter fun file => file.1 = locale).getLast?.map
        Prod.snd) := by
  have written := writeAll_of_write wrote
  have listed : ∀ file ∈ fileValues outputs untranslated,
      file.1 ∈ reportLocale :: outputs.map Prod.fst := by
    intro file member
    rw [List.mem_cons, or_comm]
    exact (mem_fst_fileValues.mp (List.mem_map_of_mem member)).imp_right And.right
  have names : Path.Names locale := by
    rcases List.mem_cons.mp known with rfl | member
    · exact names_reportLocale
    · obtain ⟨entry, present, rfl⟩ := List.mem_map.mp member
      exact named entry present
  rw [← lastWritten_localeFile written (named_fileValues named) names
    (fun file member => noLinks _ (listed file member)) (noLinks locale known)]
  exact holds_lastWritten written _

/-- An output is read in the file of its locale, if no links stand there and it is not that of
the report. -/
theorem readText_localeFile (distinct : (outputs.map Prod.fst).Nodup) {entry : String × Value}
    (present : entry ∈ outputs) (apart : entry.1 = reportLocale → untranslated = []) :
    (write tree dir outputs untranslated).1.readText (localeFile dir entry.1) =
      .ok (fileText entry.2) := by
  have holds := holds_of_noLinks wrote named noLinks
    (List.mem_cons_of_mem _ (List.mem_map_of_mem present))
  have last : ((fileValues outputs untranslated).filter fun file => file.1 = entry.1).getLast? =
      some entry := by
    obtain ⟨front, back, rfl⟩ := List.append_of_mem present
    rw [List.map_append, List.map_cons, List.nodup_middle, List.nodup_cons] at distinct
    -- Behind the entry stand other locales, and the report, which is another one if it is there.
    have none : (back ++ if untranslated = [] then []
        else [(reportLocale, Value.object untranslated)]).filter
          (fun file => file.1 = entry.1) = [] := by
      rw [List.filter_eq_nil_iff]
      intro file member same
      have same := of_decide_eq_true same
      rcases List.mem_append.mp member with member | member
      · refine distinct.1 (List.mem_append_right _ ?_)
        exact same ▸ List.mem_map_of_mem member
      · split at member
        · cases member
        · rename_i reported
          obtain rfl := List.mem_singleton.mp member
          exact reported (apart same.symm)
    rw [fileValues, List.append_assoc, List.cons_append, List.filter_append,
      List.filter_cons_of_pos (by simp), none]
    simp
  rw [last] at holds
  exact readText_of_entry holds

/-- Without a report, and without a locale of its name, the file of the report stays as it was. -/
theorem sameAt_reportFile (nothing : untranslated = [])
    (absent : reportLocale ∉ outputs.map Prod.fst) :
    SameAt (tree.createDirs dir).1 (write tree dir outputs untranslated).1 (reportFile dir) := by
  have holds := holds_of_noLinks wrote named noLinks List.mem_cons_self
  have none : (fileValues outputs untranslated).filter (fun file => file.1 = reportLocale) =
      [] := by
    rw [List.filter_eq_nil_iff]
    intro file member same
    have found : reportLocale ∈ (fileValues outputs untranslated).map Prod.fst :=
      of_decide_eq_true same ▸ List.mem_map_of_mem member
    rcases mem_fst_fileValues.mp found with member | ⟨reported, _⟩
    · exact absent member
    · exact reported nothing
  rw [none] at holds
  exact holds

end

end Phrasebook.LocaleFiles
