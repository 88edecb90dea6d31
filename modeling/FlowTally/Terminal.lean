/-!
# Terminal text

Styles and columns. A styled text starts with the code of its style and ends with a reset. A reset
inside of it is followed by the code again, so that the style goes on to the end.
-/

namespace FlowTally.Terminal

inductive Style where
  | bold
  | dimmed
  | cyan
  | red
  | boldGreen
  | boldRed
  deriving DecidableEq, Repr

def Style.code : Style → String
  | bold => "1"
  | dimmed => "2"
  | cyan => "36"
  | red => "31"
  | boldGreen => "1;32"
  | boldRed => "1;31"

/-- The sequence that turns the style on. -/
def Style.start (s : Style) : String := s!"\x1b[{s.code}m"

/-- The characters of the sequence that turns every style off. -/
def reset : List Char := ['\x1b', '[', '0', 'm']

/-- Puts a text behind every reset. -/
def restart (start : List Char) : List Char → List Char
  | '\x1b' :: '[' :: '0' :: 'm' :: rest => reset ++ start ++ restart start rest
  | c :: rest => c :: restart start rest
  | [] => []

/-- A text in a style, or as it is if there are no colors. -/
def styled (color : Bool) (s : Style) (text : String) : String :=
  if color then
    s.start ++ String.ofList (restart s.start.toList text.toList) ++ String.ofList reset
  else text

/-! ## Columns -/

def blanks (n : Nat) : String := String.ofList (List.replicate n ' ')

/-- Fills a text up on the right. The width is in characters, and a longer text is left as it is. -/
def padRight (width : Nat) (text : String) : String := text ++ blanks (width - text.length)

def padLeft (width : Nat) (text : String) : String := blanks (width - text.length) ++ text

end FlowTally.Terminal
