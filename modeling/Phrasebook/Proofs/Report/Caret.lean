import Phrasebook.Proofs.Source.SourceOrder
import Phrasebook.Proofs.Text.Width
import Phrasebook.Report

/-!
# Carets below calls

The place of a call counts the columns of the text in front of it, but the caret is set behind as
many characters.  It therefore stands under the call only if the characters by which the two
differ take no columns.
-/

namespace Phrasebook

open Text

namespace Source.File

variable {file : File} {above before start rest : List Char} {c : Char}

/-- Whether a line begins between two texts. A carriage return and a line feed are one break. -/
def BeginsLine (above rest : List Char) : Prop :=
  above = [] ∨ above.getLast? = some '\n' ∨ above.getLast? = some '\r' ∧ rest.head? ≠ some '\n'

theorem BeginsLine.tail (begins : BeginsLine (c :: above) rest) (more : above ≠ []) :
    BeginsLine above rest := by
  unfold BeginsLine at begins ⊢
  rw [List.getLast?_cons_of_ne_nil more] at begins
  exact .inr (begins.resolve_left (List.cons_ne_nil _ _))

end Source.File

namespace Report

variable {before line : List Char} {column : Nat}

/-- The characters between the text in front of a call and the caret: those of the call if the
caret stands too far to the right, and those in front if it stands too far to the left. -/
def between (before line : List Char) (column : Nat) : List Char :=
  if before.length ≤ column then (line.take column).drop before.length else before.drop column

end Report
end Phrasebook
