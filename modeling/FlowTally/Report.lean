import FlowTally.Data.Json
import FlowTally.Terminal
/-!
# Reports

What a command has to say, as text for a reader or as a tree for a program.
-/

namespace FlowTally

inductive OutputFormat where
  | text
  | json
  deriving DecidableEq, Repr

namespace OutputFormat

def all : List OutputFormat := [text, json]

def name : OutputFormat → String
  | text => "text"
  | json => "json"

def ofName? (s : String) : Option OutputFormat := all.find? (·.name = s)

end OutputFormat

class Report (α : Type) where
  /-- the text, with or without colors -/
  text : Bool → α → String
  data : α → Data

/-- A report as it is written out. -/
def OutputFormat.render {α : Type} [Report α] (f : OutputFormat) (color : Bool) (a : α) : String :=
  match f with
  | text => Report.text color a
  | json => (Report.data a).json ++ "\n"

end FlowTally
