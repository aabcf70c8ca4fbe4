import Phrasebook.Source.Grammar.Markup
import Phrasebook.Source.Grammar.Modules

/-!
# The grammar of source text

The rules of a depth read what is nested no deeper.  A text cannot nest deeper than
it is long, so that a depth computed from its length reads all of it.
-/

namespace Phrasebook.Source.Grammar

/-- The rules over the rules for what they contain. -/
def rulesOver (inner : Rules) : Rules where
  type := type inner
  expression := expression inner
  assignment := assignment inner
  unary := unary inner
  leftHand := leftHand inner
  statement := statement inner
  moduleItem := moduleItem inner
  binding := binding inner
  parameters := parameters inner
  classTail := classTail inner
  element := elementTail inner

/-- The rules of a depth. -/
def rulesOfDepth (depth : Nat) : Rules :=
  Nat.repeat rulesOver depth Rules.none

/-- The tree of a source text; `markup` says whether elements can be expressions. -/
def parse (markup : Bool) (text : List Char) : Option Node :=
  match module (rulesOfDepth (8 * text.length + 100)) (Cursor.start markup text) with
  | .ok node _ => some node
  | .refused _ => none

end Phrasebook.Source.Grammar
