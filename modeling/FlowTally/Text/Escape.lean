import FlowTally.Text.Printable
/-!
# Escaped text

Text quoted in a message has its quotes, backslashes and line breaks written with a backslash, and
all that cannot be seen written by number.
-/

namespace FlowTally.Text

/-- The number of a character in lower-case hexadecimal. -/
def byNumber (c : Char) : String := "\\u\x7b" ++ String.ofList (Nat.toDigits 16 c.toNat) ++ "\x7d"

/-- One character. A combining character has nothing to combine with where it comes `first`. -/
def escapeChar (first : Bool) (c : Char) : String :=
  match c with
  | '\x00' => "\\0"
  | '\t' => "\\t"
  | '\r' => "\\r"
  | '\n' => "\\n"
  | '\'' => "\\'"
  | '"' => "\\\""
  | '\\' => "\\\\"
  | c =>
    if (first && isCombining c) || !isPrintable c then byNumber c else c.toString

def escapeList : List Char → String
  | [] => ""
  | c :: rest => escapeChar true c ++ String.join (rest.map (escapeChar false))

def escape (s : String) : String := escapeList s.toList

end FlowTally.Text
