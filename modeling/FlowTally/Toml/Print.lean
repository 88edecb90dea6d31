import FlowTally.Data
import FlowTally.Toml.Quoted
/-!
# Writing documents

A tree is written as blocks with a blank line between them. A block belongs to one table: its
header, and the entries that fit on lines. The tables in it come after it. The header is left out if
there are no such entries but tables.
-/

namespace FlowTally.Toml

/-! ## Values -/

/-- Values between brackets: one of them on the same line, more of them on lines of their own. -/
def arrayText : List String → String
  | [] => "[]"
  | [item] => s!"[{item}]"
  | items => "[\n" ++ String.join (items.map fun item => s!"    {item},\n") ++ "]"

mutual

def valueText : Data → String
  | .null => quoted ""
  | .bool b => if b then "true" else "false"
  | .int n => toString n
  | .float literal | .unreadable literal | .datetime literal => literal
  | .text s => quoted s
  | .array items => arrayText (itemTexts items)
  | .table entries => "\x7b " ++ ", ".intercalate (entryTexts entries) ++ " \x7d"

def itemTexts : List Data → List String
  | [] => []
  | d :: rest => valueText d :: itemTexts rest

/-- Entries as they stand on one line each. -/
def entryTexts : List (String × Data) → List String
  | [] => []
  | (k, d) :: rest => s!"{k} = {valueText d}" :: entryTexts rest

end

/-! ## Blocks -/

/-- Whether a tree has a block of its own. -/
def isBlock : Data → Bool
  | .table _ => true
  | .array [] => false
  | .array items => items.all Data.isTable
  | _ => false

def pathText (path : List String) : String := ".".intercalate path

/-- The lines of a table that fit on lines. -/
def ownLines (entries : List (String × Data)) : List String :=
  entryTexts (entries.filter fun (_, d) => !isBlock d)

/-- The block of a table, if there is anything in it. -/
def tableBlock (path : List String) (entries : List (String × Data)) : List (List String) :=
  let own := ownLines entries
  let needsHeader := !path.isEmpty && (!own.isEmpty || entries.isEmpty)
  let block := (if needsHeader then [s!"[{pathText path}]"] else []) ++ own
  if block.isEmpty then [] else [block]

mutual

/-- The blocks of the tables among entries. -/
def entryBlocks (path : List String) : List (String × Data) → List (List String)
  | [] => []
  | (k, .table entries) :: rest =>
    tableBlock (path ++ [k]) entries ++ entryBlocks (path ++ [k]) entries ++ entryBlocks path rest
  | (k, .array items) :: rest =>
    (if isBlock (.array items) then itemBlocks (path ++ [k]) items else [])
      ++ entryBlocks path rest
  | _ :: rest => entryBlocks path rest

/-- The blocks of tables of one name. -/
def itemBlocks (path : List String) : List Data → List (List String)
  | [] => []
  | .table entries :: rest =>
    [s!"[[{pathText path}]]" :: ownLines entries] ++ entryBlocks path entries ++ itemBlocks path rest
  | _ :: rest => itemBlocks path rest

end

/-- A tree as a document. Of a tree that is no table nothing is written. -/
def print : Data → String
  | .table entries =>
    let blocks := tableBlock [] entries ++ entryBlocks [] entries
    "\n".intercalate (blocks.map fun lines => String.join (lines.map (· ++ "\n")))
  | _ => ""

end FlowTally.Toml
