import FlowTally.Toml.Lexical
import FlowTally.Toml.Scalar
import FlowTally.Toml.Tree
/-!
# Documents

A document is a list of lines, each a key with its value or the header of a table. Reading gives
the data tree, or nothing if the text is not a document.
-/

namespace FlowTally.Toml

/-! ## Values -/

/-- How deep lists and inline tables may lie in one another, and how many parts a key may have. -/
def maxDepth : Nat := 80

def readKey (fuel : Nat) (s : List Char) : Option (Key × List Char) := do
  let ((path, last), rest) ← key? fuel s
  if path.length < maxDepth then some (⟨path, last⟩, rest) else none

mutual

def value? (fuel depth : Nat) (s : List Char) : Option (Data × List Char) :=
  match fuel with
  | 0 => none
  | fuel + 1 =>
    match s with
    | '[' :: rest =>
      if depth = maxDepth then none
      else (items? fuel (depth + 1) rest).map fun (xs, rest) => (.array xs, rest)
    | '\x7b' :: rest =>
      if depth = maxDepth then none
      else do
        let (pairs, rest) ← pairs? fuel (depth + 1) rest
        let entries ← Entries.insertAll [] pairs
        return (.table (Node.entriesToData entries), rest)
    | '"' :: _ | '\'' :: _ => (string? s).map fun (cs, rest) => (.text (String.ofList cs), rest)
    | _ => readScalar s

/-- The rest of a list. -/
def items? (fuel depth : Nat) (s : List Char) : Option (List Data × List Char) :=
  match fuel with
  | 0 => none
  | fuel + 1 => do
    match ← skipLines false s with
    | ']' :: rest => return ([], rest)
    | s =>
      let (x, rest) ← value? fuel depth s
      match ← skipLines false rest with
      | ']' :: rest => return ([x], rest)
      | ',' :: rest =>
        let (xs, rest) ← items? fuel depth rest
        return (x :: xs, rest)
      | _ => none

/-- The rest of an inline table. Lines may end anywhere in it but inside a key. -/
def pairs? (fuel depth : Nat) (s : List Char) : Option (List (Key × Node) × List Char) :=
  match fuel with
  | 0 => none
  | fuel + 1 => do
    match ← skipLines false s with
    | '\x7d' :: rest => return ([], rest)
    | s =>
      let (k, rest) ← readKey fuel s
      let ('=' :: rest) ← skipLines false rest | none
      let (x, rest) ← value? fuel depth (← skipLines false rest)
      match ← skipLines false rest with
      | '\x7d' :: rest => return ([(k, .leaf x)], rest)
      | ',' :: rest =>
        let (ps, rest) ← pairs? fuel depth rest
        return ((k, .leaf x) :: ps, rest)
      | _ => none

end

/-! ## Lines -/

inductive Line where
  | header (append : Bool) (key : Key)
  | pair (key : Key) (value : Data)

def header? (fuel : Nat) (s : List Char) : Option (Line × List Char) := do
  match s with
  | '[' :: '[' :: rest =>
    let (k, rest) ← readKey fuel rest
    let (']' :: ']' :: rest) := rest | none
    return (.header true k, rest)
  | '[' :: rest =>
    let (k, rest) ← readKey fuel rest
    let (']' :: rest) := rest | none
    return (.header false k, rest)
  | _ => none

def pair? (fuel : Nat) (s : List Char) : Option (Line × List Char) := do
  let (k, rest) ← readKey fuel s
  let ('=' :: rest) := rest | none
  let (x, rest) ← value? fuel 0 (skipBlanks rest)
  return (.pair k x, rest)

def lines? (fuel : Nat) (s : List Char) : Option (List Line) :=
  match fuel with
  | 0 => none
  | fuel + 1 => do
    match ← skipLines false s with
    | [] => return []
    | s =>
      let (line, rest) ← match s with
        | '[' :: _ => header? fuel s
        | _ => pair? fuel s
      return line :: (← lines? fuel (← endLine false rest))

/-! ## The tree -/

/-- A header with the pairs below it. -/
structure Section where
  append : Bool
  key : Key
  pairs : List (Key × Node)

/-- The pairs before the first header, and the sections. -/
def sections : List Line → List (Key × Node) × List Section
  | [] => ([], [])
  | .pair k d :: rest =>
    let (pairs, ss) := sections rest
    ((k, .leaf d) :: pairs, ss)
  | .header append k :: rest =>
    let (pairs, ss) := sections rest
    ([], ⟨append, k, pairs⟩ :: ss)

def Section.addTo (es : Entries) (s : Section) : Option Entries :=
  if s.append then es.appendTable s.key s.pairs else es.openTable s.key s.pairs

/-- Reads a document. A byte order mark in front of it is passed over. -/
def parse? (text : String) : Option Data := do
  let chars := match text.toList with
    | '\ufeff' :: rest => rest
    | cs => cs
  let (pairs, ss) := sections (← lines? (chars.length + 2) chars)
  let root ← Entries.insertAll [] pairs
  let root ← ss.foldlM Section.addTo root
  return .table (Node.entriesToData root)

end FlowTally.Toml
