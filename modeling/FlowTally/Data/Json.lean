import FlowTally.Data
import FlowTally.Text.Hex
/-!
# Trees as JSON

A tree is written with an entry on each line, indented by two blanks a level. Only quotes,
backslashes and control characters are escaped in strings.
-/

namespace FlowTally.Data

def jsonEscape (c : Char) : List Char :=
  match c with
  | '"' => ['\\', '"']
  | '\\' => ['\\', '\\']
  | '\n' => ['\\', 'n']
  | '\r' => ['\\', 'r']
  | '\t' => ['\\', 't']
  | '\x08' => ['\\', 'b']
  | '\x0c' => ['\\', 'f']
  | c => if c.toNat < 32 then '\\' :: 'u' :: Text.hexDigits 4 c.toNat else [c]

def jsonString (s : String) : String :=
  "\"" ++ String.ofList (s.toList.flatMap jsonEscape) ++ "\""

def jsonIndent (level : Nat) : String := String.ofList (List.replicate (2 * level) ' ')

/-- Entries between brackets, on lines of their own. -/
def jsonBlock (left right : String) (level : Nat) (items : List String) : String :=
  if items.isEmpty then left ++ right
  else
    left ++ "\n" ++ ",\n".intercalate (items.map (jsonIndent (level + 1) ++ ·)) ++ "\n"
      ++ jsonIndent level ++ right

mutual

/-- The text of a tree that stands at a level of indentation. -/
def jsonAt (level : Nat) : Data → String
  | null => "null"
  | bool b => if b then "true" else "false"
  | int n => toString n
  | float literal | unreadable literal | datetime literal => literal
  | text s => jsonString s
  | array items => jsonBlock "[" "]" level (jsonItems (level + 1) items)
  | table entries => jsonBlock "\x7b" "\x7d" level (jsonEntries (level + 1) entries)

def jsonItems (level : Nat) : List Data → List String
  | [] => []
  | d :: rest => jsonAt level d :: jsonItems level rest

def jsonEntries (level : Nat) : List (String × Data) → List String
  | [] => []
  | (k, d) :: rest => s!"{jsonString k}: {jsonAt level d}" :: jsonEntries level rest

end

def json (d : Data) : String := jsonAt 0 d

end FlowTally.Data
