import Phrasebook.LocaleFiles
import Phrasebook.LocaleStore
import Phrasebook.Proofs.FileTree.Aliases
import Phrasebook.Proofs.Json.Exact

/-!
# Translations read back

What is written to a file of translations is read back from it unchanged, if there are no doubles
in it and no more containers nest in it than are read.
-/

namespace Phrasebook.LocaleFiles

open Json FileTree

/-- The text that is written for a value without doubles is parsed as this very value, with the
same order of members, if and only if the members of each object have distinct names and less than
128 containers nest.  Then the value is also read back from every file it was written to. -/
theorem written_value_is_read_back (value : Value) (integral : value.isIntegral = true) :
    (Value.parse (fileText value) = .ok value ↔
        value.isDistinct = true ∧ value.nesting < depthLimit) ∧
      (value.isDistinct = true → value.nesting < depthLimit →
        ∀ (tree after : FileTree) (file : Path),
          tree.write file (.text (fileText value)) = .ok after →
            LocaleStore.readLocale after file = .ok value) := by
  have parsed : Value.parse (fileText value) = .ok value ↔
      value.isDistinct = true ∧ value.nesting < depthLimit := by
    rw [← reread_eq_self_iff value integral]
    constructor
    · intro same
      have shallow := (parse_pretty_iff value).mp ⟨value, same⟩
      refine ⟨?_, shallow⟩
      exact Except.ok.inj ((parse_pretty value shallow).symm.trans same)
    · rintro ⟨same, shallow⟩
      rw [fileText, parse_pretty value shallow, same]
  refine ⟨parsed, ?_⟩
  intro distinct shallow tree after file written
  rw [LocaleStore.readLocale, readText_of_entry (entry_of_write written)]
  simp only [Except.mapError, bind, Except.bind, parsed.mpr ⟨distinct, shallow⟩]

/-- A value with the least and the greatest integer, control characters, quotes and other
characters in names and strings, and empty and nested containers. -/
def cornerValue : Value :=
  .object [
    ("low", .number (.integer (-0x8000000000000000) (by decide) (by decide))),
    ("high", .number (.integer 0xFFFFFFFFFFFFFFFF (by decide) (by decide))),
    ("\x00\t\n\x1f \"\\/\x7f", .string "é\u2028😀"),
    ("", .array [.null, .bool false, .array [], .object [("a", .object []), ("", .array [])]])]

theorem corners_are_read_back :
    Value.parse (fileText cornerValue) = .ok cornerValue ∧
      ∃ after, (FileTree.empty "w").write ⟨"en.json"⟩ (.text (fileText cornerValue)) = .ok after ∧
        LocaleStore.readLocale after ⟨"en.json"⟩ = .ok cornerValue := by
  obtain ⟨parsed, readable⟩ := written_value_is_read_back cornerValue (by decide)
  have distinct : cornerValue.isDistinct = true := by decide
  have shallow : cornerValue.nesting < depthLimit := by decide
  refine ⟨parsed.mpr ⟨distinct, shallow⟩, ?_⟩
  have writes : ((FileTree.empty "w").write ⟨"en.json"⟩
      (.text (fileText cornerValue))).isOk = true := by decide +kernel
  cases written : (FileTree.empty "w").write ⟨"en.json"⟩ (.text (fileText cornerValue)) with
  | error error =>
      rw [written] at writes
      cases writes
  | ok after => exact ⟨after, rfl, readable distinct shallow _ after _ written⟩

end Phrasebook.LocaleFiles
