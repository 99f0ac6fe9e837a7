/-!
# Styles for a terminal

A style is a list of attributes, the outermost first.  An attribute is switched
on by an escape sequence before the text and off by one behind it: every colour
goes off with the same sequence, and every other attribute with the one that
switches all of them off.
-/

namespace SearchQuery.Text

/-- A colour or another attribute of text on a terminal. -/
inductive Attribute
  | red
  | green
  | yellow
  | magenta
  | cyan
  | bold
  | dimmed
  | underlined
  deriving DecidableEq

namespace Attribute

/-- The number that switches the attribute on. -/
def code : Attribute → Nat
  | red => 31
  | green => 32
  | yellow => 33
  | magenta => 35
  | cyan => 36
  | bold => 1
  | dimmed => 2
  | underlined => 4

/-- The number that switches the attribute off. -/
def offCode : Attribute → Nat
  | bold => 0
  | dimmed => 0
  | underlined => 0
  | _ => 39

/-- The escape sequence with a number. -/
def sequence (code : Nat) : String :=
  "\x1b[" ++ toString code ++ "m"

/-- The text with the attribute. -/
def apply (look : Attribute) (text : String) : String :=
  sequence look.code ++ text ++ sequence look.offCode

end Attribute

/-- A style: attributes, the outermost first. -/
abbrev Style :=
  List Attribute

/-- The text in a style. -/
def Style.paint (style : Style) (text : String) : String :=
  style.foldr Attribute.apply text

/-- The text in a style, if styles are to be used. -/
def Style.paintIf (style : Style) (used : Bool) (text : String) : String :=
  if used then style.paint text else text

end SearchQuery.Text
