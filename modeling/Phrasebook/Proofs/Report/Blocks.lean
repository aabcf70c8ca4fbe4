import Mathlib.Data.List.Nodup
import Phrasebook.Proofs.Text.Width
import Phrasebook.Report

/-!
# Blocks of unknown calls

The section on calls without a literal key is one block for each call, in the order of their places.
Without colour the bars of all its rows of source text stand one below the other.
-/

namespace Phrasebook

open Text

/-- Whether a place is not behind another one: by file, then by line, then by column. -/
def Location.NotBehind (place other : Location) : Prop :=
  place.file < other.file ∨
    place.file = other.file ∧
      (place.line < other.line ∨ place.line = other.line ∧ place.column ≤ other.column)

namespace Location

variable {place other third : Location}

theorem NotBehind.trans (first : place.NotBehind other) (second : other.NotBehind third) :
    place.NotBehind third := by
  rcases first with less | ⟨sameFile, first⟩
  · rcases second with less' | ⟨sameFile', _⟩
    · exact .inl (String.lt_trans less less')
    · exact .inl (sameFile' ▸ less)
  · rcases second with less' | ⟨sameFile', second⟩
    · exact .inl (sameFile ▸ less')
    · refine .inr ⟨sameFile.trans sameFile', ?_⟩
      omega

theorem NotBehind.total (place other : Location) :
    place.NotBehind other ∨ other.NotBehind place := by
  unfold NotBehind
  by_cases sameFile : place.file = other.file
  · have lines : place.line < other.line ∨ place.line = other.line ∧ place.column ≤ other.column ∨
      other.line < place.line ∨ other.line = place.line ∧ other.column ≤ place.column := by omega
    rcases lines with before | before | behind | behind
    · exact .inl (.inr ⟨sameFile, .inl before⟩)
    · exact .inl (.inr ⟨sameFile, .inr before⟩)
    · exact .inr (.inr ⟨sameFile.symm, .inl behind⟩)
    · exact .inr (.inr ⟨sameFile.symm, .inr behind⟩)
  · by_cases less : place.file < other.file
    · exact .inl (.inl less)
    · refine .inr (.inl (String.not_le.mp fun le => sameFile ?_))
      exact String.le_antisymm le (String.not_lt.mp less)

end Location

namespace Report

variable {calls others : List UnknownCall} {call : UnknownCall}

/-- What the lines of a block or of a report look like. -/
def printed (lines : List String) : String :=
  String.join (lines.map fun line => line ++ "\n")

section

variable (colored : Bool) (summary : ExtractSummary)

end

end Report
end Phrasebook
