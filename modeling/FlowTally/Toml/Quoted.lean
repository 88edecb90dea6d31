import FlowTally.Text.Hex
/-!
# Quoted strings

A string is written in the first form that needs no escapes, and in a basic form if there is none.
The forms are tried in the order of `forms`. A form of several lines starts on a new line if the
string has line ends.
-/

namespace FlowTally.Toml

/-- The four forms of a string. -/
inductive Quoting where
  | basic
  | literal
  | basicLines
  | literalLines
  deriving DecidableEq, Repr

namespace Quoting

/-- In the order in which they are preferred. -/
def forms : List Quoting := [basic, literal, basicLines, literalLines]

def quote : Quoting → Char
  | basic | basicLines => '"'
  | literal | literalLines => '\''

def hasLines : Quoting → Bool
  | basicLines | literalLines => true
  | basic | literal => false

def isBasic : Quoting → Bool
  | basic | basicLines => true
  | literal | literalLines => false

/-- How many quotes may stand in a row. -/
def quoteLimit (q : Quoting) : Nat := if q.hasLines then 2 else 0

end Quoting

/-! ## Choosing a form -/

/-- A control character that every form has to escape. -/
def isControl (c : Char) : Bool := (c.toNat < 32 && c != '\t' && c != '\n') || c == '\x7f'

/-- The length of the longest row of a character, `current` of which came just before. -/
def longestRow (c : Char) (current : Nat) : List Char → Nat
  | [] => current
  | d :: rest =>
    if d = c then longestRow c (current + 1) rest else max current (longestRow c 0 rest)

/-- Whether a string can be written in a form without escapes. -/
def Quoting.suits (q : Quoting) (s : List Char) : Bool :=
  !s.any isControl && (q.hasLines || !s.contains '\n') && (!q.isBasic || !s.contains '\\')
    && longestRow q.quote 0 s ≤ q.quoteLimit

def Quoting.choose (s : List Char) : Quoting :=
  (forms.find? (·.suits s)).getD (if s.contains '\n' then basicLines else basic)

/-! ## Writing -/

def upperHex (c : Char) : List Char := (Text.hexDigits 4 c.toNat).map Char.toUpper

/-- What stands in a basic string for a character that is no quote. -/
def basicChar (hasLines : Bool) (c : Char) : List Char :=
  match c with
  | '\x08' => ['\\', 'b']
  | '\t' => ['\\', 't']
  | '\n' => if hasLines then ['\n'] else ['\\', 'n']
  | '\x0c' => ['\\', 'f']
  | '\r' => ['\\', 'r']
  | '\\' => ['\\', '\\']
  | c => if isControl c then '\\' :: 'u' :: upperHex c else [c]

/-- The inside of a basic string. A quote is escaped where it would be one too many in a row; a row
starts anew behind an escape. -/
def basicText (q : Quoting) (row : Nat) : List Char → List Char
  | [] => []
  | '"' :: rest =>
    if q.quoteLimit ≤ row then '\\' :: '"' :: basicText q 0 rest
    else '"' :: basicText q (row + 1) rest
  | c :: rest => basicChar q.hasLines c ++ basicText q 0 rest

def Quoting.write (q : Quoting) (s : List Char) : List Char :=
  let quotes := List.replicate (if q.hasLines then 3 else 1) q.quote
  let start := if q.hasLines && s.contains '\n' then ['\n'] else []
  quotes ++ start ++ (if q.isBasic then basicText q 0 s else s) ++ quotes

/-- A string as it is written. -/
def quoted (s : String) : String :=
  let cs := s.toList
  String.ofList ((Quoting.choose cs).write cs)

end FlowTally.Toml
