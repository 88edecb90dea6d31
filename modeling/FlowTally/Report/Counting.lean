import FlowTally.Layout
import FlowTally.Report
import FlowTally.Rule.OfCounter
/-!
# Reports on counters

The rules that counters are compiled to, the counts that were read, and the removal of a table.
-/

namespace FlowTally

open Terminal

/-- Whether a direction is asked for. -/
def isAsked (only : Option Direction) (d : Direction) : Bool := only.all (· == d)

/-! ## Rules -/

structure RulesReport where
  table : Table
  rules : List (Direction × Rule)

namespace RulesReport

/-- The rules of a set of counters, without asking the kernel. -/
def ofCounters (l : Layout) (s : CounterSet) (only : Option Direction) : RulesReport where
  table := l.table
  rules := (Rule.ofCounters (l.chain .input) (l.chain .output) s).filter fun (d, _) => isAsked only d

def ruleText (color : Bool) (r : Rule) : String :=
  let exprs := r.exprs.map fun e => s!"  {e.text}\n"
  let label := r.comment.getD ""
  s!"\n{styled color .cyan r.chain} {styled color .bold label}\n" ++ String.join exprs

def text (color : Bool) (r : RulesReport) : String :=
  s!"Table {styled color .bold r.table.text} ({r.rules.length} rules)\n"
    ++ String.join (r.rules.map fun (_, rule) => ruleText color rule)

def ruleData (d : Direction) (r : Rule) : Data :=
  .table [("direction", .text d.name), ("chain", .text r.chain), ("label", .text (r.comment.getD "")),
    ("expressions", .array (r.exprs.map fun e => .text e.text))]

def data (r : RulesReport) : Data :=
  .table [("table", .text r.table.text), ("total", .nat r.rules.length),
    ("rules", .array (r.rules.map fun (d, rule) => ruleData d rule))]

instance : Report RulesReport := ⟨text, data⟩

end RulesReport

/-! ## Counts -/

/-- What was read. Reading has set the counts to zero. -/
structure CountsReport where
  counters : List (Direction × Counter)

namespace CountsReport

def ofReading (s : CounterSet) (only : Option Direction) : CountsReport where
  counters := s.toList.filter fun (d, _) => isAsked only d

/-- What the counter asks of a packet. -/
def conditions (c : Counter) : List String :=
  (c.attributes.filter fun (k, _) => k ≠ "direction" ∧ k ≠ "label").map fun (k, v) => s!"{k}={v}"

/-- The columns but the last, each with its width. -/
def row (style : String → String) (direction label packets bytes conditions : String) : String :=
  let cells := [padRight 8 direction, padRight 24 label, padLeft 12 packets, padLeft 14 bytes]
  " ".intercalate (cells.map style) ++ s!"  {style conditions}\n"

def counterText (d : Direction) (c : Counter) : String :=
  row id d.name c.label (toString c.packets.toNat) (toString c.bytes.toNat)
    (" ".intercalate (conditions c))

def text (color : Bool) (r : CountsReport) : String :=
  if r.counters.isEmpty then "No counters installed.\n"
  else
    row (styled color .bold) "DIR" "LABEL" "PACKETS" "BYTES" "MATCH"
      ++ String.join (r.counters.map fun (d, c) => counterText d c)
      ++ "\n" ++ styled color .dimmed "Counters were reset by this read." ++ "\n"

def counterData (d : Direction) (c : Counter) : Data :=
  .table [("direction", .text d.name), ("label", .text c.label), ("packets", .nat c.packets.toNat),
    ("bytes", .nat c.bytes.toNat), ("matches", .array ((conditions c).map Data.text))]

def data (r : CountsReport) : Data :=
  .table [("reset", .bool true), ("counters", .array (r.counters.map fun (d, c) => counterData d c))]

instance : Report CountsReport := ⟨text, data⟩

end CountsReport

/-! ## Removal -/

structure RemovalReport where
  table : Table

namespace RemovalReport

def text (color : Bool) (r : RemovalReport) : String :=
  s!"Table {styled color .bold r.table.text} removed.\n"

def data (r : RemovalReport) : Data := .table [("table", .text r.table.text)]

instance : Report RemovalReport := ⟨text, data⟩

end RemovalReport

end FlowTally
