import ClasspathAudit.Text

/-
# Styled text

Text on a terminal has a colour and may be bold or dim. A style is switched on by codes before the
text, one for each property, and off again by one code after it; where styling is off the text
stands alone.
-/
namespace ClasspathAudit

/-- A colour of text. -/
inductive Color
  | red
  | green
  | yellow
  | blue
  | cyan
deriving DecidableEq

/-- The number of a colour in the codes of a terminal. -/
def Color.code : Color → Nat
  | red => 31
  | green => 32
  | yellow => 33
  | blue => 34
  | cyan => 36

/-- How text looks. -/
structure Style where
  /-- The colour, if not that of other text. -/
  color : Option Color := none
  /-- Whether the text is bold. -/
  isBold : Bool := false
  /-- Whether the text is dim. -/
  isDim : Bool := false
deriving DecidableEq

namespace Style

/-- Text in a colour. -/
def colored (color : Color) : Style := { color := some color }

/-- Bold text. -/
def bold : Style := { isBold := true }

/-- Dim text. -/
def dim : Style := { isDim := true }

/-- Bold text in a colour. -/
def strong (color : Color) : Style := { color := some color, isBold := true }

/-- The code that switches a property on. -/
def sequence (code : Nat) : String :=
  s!"\x1b[{code}m"

/-- The codes before text of a style: its colour, then bold or dim. -/
def opening (style : Style) : List Nat :=
  (style.color.map Color.code).toList ++ (if style.isBold then [1] else []) ++
    (if style.isDim then [2] else [])

/-- Text in a style, if styling is on. -/
def apply (style : Style) (isOn : Bool) (text : String) : String :=
  if isOn && !style.opening.isEmpty then
    String.join (style.opening.map sequence) ++ text ++ sequence 0
  else
    text

end Style
end ClasspathAudit
