import FlowTally.Data
/-!
# Trees under construction

A table can be opened by a header, or come into being on the way of a header's path or of a dotted
key. How it came into being decides who may add to it, and a dotted key makes the tables that it
goes through its own if so far they only stood on the way of a header's path. Values are closed: an
inline table and a list that was written as one stay as they are.
-/

namespace FlowTally.Toml

/-- How a table came into being. -/
inductive Origin where
  | header
  | path
  | dotted
  deriving DecidableEq, Repr

inductive Node where
  | leaf (value : Data)
  | table (origin : Origin) (entries : List (String × Node))
  /-- tables that are opened one after the other by headers of one name -/
  | tables (items : List Node)
  deriving Inhabited

abbrev Entries := List (String × Node)

mutual

def Node.toData : Node → Data
  | .leaf d => d
  | .table _ entries => .table (Node.entriesToData entries)
  | .tables items => .array (Node.itemsToData items)

def Node.entriesToData : Entries → List (String × Data)
  | [] => []
  | (k, n) :: rest => (k, n.toData) :: Node.entriesToData rest

def Node.itemsToData : List Node → List Data
  | [] => []
  | n :: rest => n.toData :: Node.itemsToData rest

end

/-- The parts of a key before the last one, and the last one. -/
structure Key where
  path : List String
  last : String
  deriving DecidableEq, Repr

namespace Entries

def replace (k : String) (n : Node) (es : Entries) : Entries :=
  es.map fun (k', n') => if k' = k then (k', n) else (k', n')

/-- Changes the table at the end of a path. Tables that are missing on the way are made. A path of a
dotted key does not go through a table that a header has opened, unless it is the last of many, and
no header can open any that it goes through. -/
def change (dotted : Bool) (f : Origin → Entries → Option Entries) :
    List String → Origin → Entries → Option Entries
  | [], origin, es => f origin es
  | k :: path, _, es =>
    match es.lookup k with
    | none =>
      let origin := if dotted then Origin.dotted else Origin.path
      (change dotted f path origin []).map fun inner => es ++ [(k, .table origin inner)]
    | some (.table origin inner) =>
      if dotted && origin = .header then none
      else
        let origin := if dotted then Origin.dotted else origin
        (change dotted f path origin inner).map fun inner => replace k (.table origin inner) es
    | some (.tables items) =>
      match items.getLast? with
      | some (.table origin inner) =>
        (change dotted f path origin inner).map fun inner =>
          replace k (.tables (items.dropLast ++ [.table origin inner])) es
      | _ => none
    | some (.leaf _) => none

/-- Adds a value under a key that is not there yet. A dotted key does not add to a table that a
header has opened. -/
def insert (k : Key) (n : Node) (es : Entries) : Option Entries :=
  let dotted := !k.path.isEmpty
  change dotted
    (fun origin es =>
      if dotted && origin = .header then none
      else if (es.lookup k.last).isSome then none
      else some (es ++ [(k.last, n)]))
    k.path .header es

def insertAll (es : Entries) (pairs : List (Key × Node)) : Option Entries :=
  pairs.foldlM (fun es (k, n) => es.insert k n) es

/-- Adds a table that a header opens. It may have come into being on the way of another header's
path, but not before in any other way. -/
def openTable (k : Key) (pairs : List (Key × Node)) (es : Entries) : Option Entries :=
  change false
    (fun _ es =>
      match es.lookup k.last with
      | none => (insertAll [] pairs).map fun t => es ++ [(k.last, .table .header t)]
      | some (.table .path t) =>
        (insertAll t pairs).map fun t => replace k.last (.table .header t) es
      | some _ => none)
    k.path .header es

/-- Adds one more to the tables of a name. -/
def appendTable (k : Key) (pairs : List (Key × Node)) (es : Entries) : Option Entries :=
  change false
    (fun _ es => do
      let item := Node.table .header (← insertAll [] pairs)
      match es.lookup k.last with
      | none => some (es ++ [(k.last, .tables [item])])
      | some (.tables items) => some (replace k.last (.tables (items ++ [item])) es)
      | some _ => none)
    k.path .header es

end Entries

end FlowTally.Toml
