/-!
# Words of a document

White space, comments, strings and keys, as TOML 1.1 has them. Every reader takes a character list
and gives what it has read with what follows, or nothing if no such word stands there.
-/

namespace FlowTally.Toml

/-! ## Blanks and comments -/

def isBlank (c : Char) : Bool := c == ' ' || c == '\t'

def skipBlanks (s : List Char) : List Char := s.dropWhile isBlank

/-- Characters that text may hold as they are: all but the control characters, and the tab. -/
def isTextChar (c : Char) : Bool := c == '\t' || (0x20 ≤ c.toNat && c.toNat != 0x7f)

/-- Skips blanks, line ends and comments, from inside a comment or not. -/
def skipLines (comment : Bool) : List Char → Option (List Char)
  | [] => some []
  | '\n' :: rest => skipLines false rest
  | '\r' :: '\n' :: rest => skipLines false rest
  | c :: rest =>
    if comment then if isTextChar c then skipLines true rest else none
    else if c == '#' then skipLines true rest
    else if isBlank c then skipLines false rest
    else some (c :: rest)

/-- The line after the end of this one, of which only blanks and a comment may be left. -/
def endLine (comment : Bool) : List Char → Option (List Char)
  | [] => some []
  | '\n' :: rest => some rest
  | '\r' :: '\n' :: rest => some rest
  | c :: rest =>
    if comment then if isTextChar c then endLine true rest else none
    else if c == '#' then endLine true rest
    else if isBlank c then endLine false rest
    else none

/-! ## Strings -/

def hexValue? (c : Char) : Option Nat :=
  if '0' ≤ c ∧ c ≤ '9' then some (c.toNat - 48)
  else if 'a' ≤ c ∧ c ≤ 'f' then some (c.toNat - 87)
  else if 'A' ≤ c ∧ c ≤ 'F' then some (c.toNat - 55)
  else none

/-- The character whose number is written with these hexadecimal digits, if there is one. -/
def charOfHex? (digits : List Char) : Option Char := do
  let n := (← digits.mapM hexValue?).foldl (fun n d => n * 16 + d) 0
  if h : n.isValidChar then some ⟨UInt32.ofNat n, by
    rw [UInt32.isValidChar, UInt32.toNat_ofNat_of_lt' (by rcases h with h | h <;> simp only [UInt32.size] <;> omega)]
    exact h⟩
  else none

def escaped? : Char → Option Char
  | 'b' => some '\x08'
  | 't' => some '\t'
  | 'n' => some '\n'
  | 'f' => some '\x0c'
  | 'r' => some '\r'
  | 'e' => some '\x1b'
  | '"' => some '"'
  | '\\' => some '\\'
  | _ => none

/-- A string read so far, and what follows it. -/
abbrev Reading := Option (List Char × List Char)

def Reading.push (c : Option Char) (r : Reading) : Reading := do
  let c ← c
  let (cs, rest) ← r
  return (c :: cs, rest)

/-- A basic string, after its opening quote. -/
def basic : List Char → Reading
  | '"' :: rest => some ([], rest)
  | '\\' :: 'x' :: a :: b :: rest => (basic rest).push (charOfHex? [a, b])
  | '\\' :: 'u' :: a :: b :: c :: d :: rest => (basic rest).push (charOfHex? [a, b, c, d])
  | '\\' :: 'U' :: a :: b :: c :: d :: e :: f :: g :: h :: rest =>
    (basic rest).push (charOfHex? [a, b, c, d, e, f, g, h])
  | '\\' :: c :: rest => (basic rest).push (escaped? c)
  | c :: rest => if isTextChar c then (basic rest).push (some c) else none
  | [] => none

/-- A literal string, after its opening quote. -/
def literal : List Char → Reading
  | '\'' :: rest => some ([], rest)
  | c :: rest => if isTextChar c then (literal rest).push (some c) else none
  | [] => none

/-- How a character of a multi-line basic string is taken. -/
inductive LineMode where
  | text
  /-- behind a backslash at the end of a line, before the line end -/
  | folding
  /-- behind that line end, where all blanks and line ends are dropped -/
  | folded
  deriving DecidableEq

/-- A multi-line basic string, after its opening quotes. Up to two quotes may stand before the
closing ones. -/
def basicLines : LineMode → List Char → Reading
  | .folding, '\n' :: rest => basicLines .folded rest
  | .folding, '\r' :: '\n' :: rest => basicLines .folded rest
  | .folding, c :: rest => if isBlank c then basicLines .folding rest else none
  | .folded, '\n' :: rest => basicLines .folded rest
  | .folded, '\r' :: '\n' :: rest => basicLines .folded rest
  | .folded, ' ' :: rest => basicLines .folded rest
  | .folded, '\t' :: rest => basicLines .folded rest
  | _, '"' :: '"' :: '"' :: '"' :: '"' :: rest => some (['"', '"'], rest)
  | _, '"' :: '"' :: '"' :: '"' :: rest => some (['"'], rest)
  | _, '"' :: '"' :: '"' :: rest => some ([], rest)
  | _, '\n' :: rest => (basicLines .text rest).push (some '\n')
  | _, '\r' :: '\n' :: rest => ((basicLines .text rest).push (some '\n')).push (some '\r')
  | _, '\\' :: '\n' :: rest => basicLines .folded rest
  | _, '\\' :: '\r' :: '\n' :: rest => basicLines .folded rest
  | _, '\\' :: ' ' :: rest => basicLines .folding rest
  | _, '\\' :: '\t' :: rest => basicLines .folding rest
  | _, '\\' :: 'x' :: a :: b :: rest => (basicLines .text rest).push (charOfHex? [a, b])
  | _, '\\' :: 'u' :: a :: b :: c :: d :: rest =>
    (basicLines .text rest).push (charOfHex? [a, b, c, d])
  | _, '\\' :: 'U' :: a :: b :: c :: d :: e :: f :: g :: h :: rest =>
    (basicLines .text rest).push (charOfHex? [a, b, c, d, e, f, g, h])
  | _, '\\' :: c :: rest => (basicLines .text rest).push (escaped? c)
  | _, c :: rest => if isTextChar c then (basicLines .text rest).push (some c) else none
  | _, [] => none

/-- A multi-line literal string, after its opening quotes. -/
def literalLines : List Char → Reading
  | '\'' :: '\'' :: '\'' :: '\'' :: '\'' :: rest => some (['\'', '\''], rest)
  | '\'' :: '\'' :: '\'' :: '\'' :: rest => some (['\''], rest)
  | '\'' :: '\'' :: '\'' :: rest => some ([], rest)
  | '\n' :: rest => (literalLines rest).push (some '\n')
  | '\r' :: '\n' :: rest => ((literalLines rest).push (some '\n')).push (some '\r')
  | c :: rest => if isTextChar c then (literalLines rest).push (some c) else none
  | [] => none

/-- A line end right behind the opening quotes is not part of the string. -/
def skipLineEnd : List Char → List Char
  | '\n' :: rest => rest
  | '\r' :: '\n' :: rest => rest
  | s => s

/-- A string of any of the four forms. -/
def string? : List Char → Reading
  | '"' :: '"' :: '"' :: rest => basicLines .text (skipLineEnd rest)
  | '"' :: rest => basic rest
  | '\'' :: '\'' :: '\'' :: rest => literalLines (skipLineEnd rest)
  | '\'' :: rest => literal rest
  | _ => none

/-! ## Keys -/

def isKeyChar (c : Char) : Bool :=
  ('a' ≤ c && c ≤ 'z') || ('A' ≤ c && c ≤ 'Z') || ('0' ≤ c && c ≤ '9') || c == '_' || c == '-'

/-- One part of a key. -/
def simpleKey? : List Char → Option (String × List Char)
  | '"' :: rest => (basic rest).map fun (cs, rest) => (String.ofList cs, rest)
  | '\'' :: rest => (literal rest).map fun (cs, rest) => (String.ofList cs, rest)
  | s =>
    let cs := s.takeWhile isKeyChar
    if cs.isEmpty then none else some (String.ofList cs, s.drop cs.length)

/-- A key, which is a path of parts with points between them: the parts before the last one, and
the last one. -/
def key? (fuel : Nat) (s : List Char) : Option ((List String × String) × List Char) :=
  match fuel with
  | 0 => none
  | fuel + 1 => do
    let (part, rest) ← simpleKey? (skipBlanks s)
    match skipBlanks rest with
    | '.' :: rest =>
      let ((path, last), rest) ← key? fuel rest
      return ((part :: path, last), rest)
    | rest => return (([], part), rest)

end FlowTally.Toml
