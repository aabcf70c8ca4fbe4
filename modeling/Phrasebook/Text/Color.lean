/-!
# Coloured text

Text is styled for a terminal by escape codes around it.  Without colour a style
leaves the text as it is.
-/

namespace Phrasebook.Text

/-- The colours in use. -/
inductive Color where
  | red
  | green
  | yellow
  | blue
  | cyan
  deriving DecidableEq, Repr

/-- The code of a foreground colour. -/
def Color.code : Color → String
  | .red => "31"
  | .green => "32"
  | .yellow => "33"
  | .blue => "34"
  | .cyan => "36"

/-- A way to show text: bold or not, in a colour or not. -/
structure Style where
  bold : Bool := false
  color : Option Color := none
  deriving DecidableEq, Repr

/-- A plain colour. -/
def Style.of (color : Color) : Style :=
  ⟨false, some color⟩

/-- A bold colour. -/
def Style.boldOf (color : Color) : Style :=
  ⟨true, some color⟩

/-- The codes of a style, bold first. -/
def Style.codes (style : Style) : List String :=
  (if style.bold then ["1"] else []) ++ (style.color.map Color.code).toList

/-- The text in a style, if colours are on. -/
def Style.paint (style : Style) (colored : Bool) (text : String) : String :=
  if colored ∧ style.codes ≠ [] then
    "\x1b[" ++ String.intercalate ";" style.codes ++ "m" ++ text ++ "\x1b[0m"
  else text

/-- A text with blanks in front up to a number of characters. -/
def alignRight (width : Nat) (text : String) : String :=
  String.ofList (List.replicate (width - text.length) ' ') ++ text

end Phrasebook.Text
