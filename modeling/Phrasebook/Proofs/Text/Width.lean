import Mathlib.Tactic.SplitIfs
import Phrasebook.Text.Width

/-!
# Widths of texts drawn character by character

Most characters take their columns whatever stands around them.  A text of such characters is as
wide as they are together, and adds as much to any text in front of it.
-/

namespace Phrasebook.Text

variable {c : Char} {front back text : List Char}

/-- The columns of the characters of a text, each one by itself. -/
def columnsOf : List Char → Nat
  | [] => 0
  | c :: rest => charWidth c + columnsOf rest

@[simp] theorem columnsOf_nil : columnsOf [] = 0 :=
  rfl

end Phrasebook.Text
