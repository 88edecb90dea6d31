import FlowTally.Direction
import FlowTally.Expr
import FlowTally.Family
/-!
# Tables, chains and rules

The objects the kernel keeps. A rule is a counter rule if it counts once and has a label.
-/

namespace FlowTally

/-- A table, known by its family and name. -/
structure Table where
  family : Family
  name : String
  deriving DecidableEq, Repr

def Table.text (t : Table) : String := s!"{t.family.name} {t.name}"

/-- Where a base chain sees packets, and its place among the chains that see them there. -/
structure Hook where
  direction : Direction
  priority : Int32
  deriving DecidableEq, Repr

/-- A chain of a table. Packets enter it only through its hook, if it has one. -/
structure Chain where
  table : Table
  name : String
  hook : Option Hook
  deriving DecidableEq, Repr

namespace Chain

def base (table : Table) (name : String) (direction : Direction) (priority : Int32) : Chain :=
  ⟨table, name, some ⟨direction, priority⟩⟩

def text (c : Chain) : String := s!"{c.table.text} {c.name}"

end Chain

/-- A rule of a chain. Its handle is given by the kernel, its comment is the label. -/
structure Rule where
  table : Table
  chain : String
  handle : Option UInt64 := none
  exprs : List Expr := []
  comment : Option String := none
  deriving DecidableEq, Repr

namespace Rule

def counterCount (r : Rule) : Nat := r.exprs.countP Expr.isCounter

def isCounterRule (r : Rule) : Bool :=
  r.counterCount == 1 && r.comment.any (!·.isEmpty)

def withoutHandle (r : Rule) : Rule := { r with handle := none }

def reset (r : Rule) : Rule := { r with exprs := r.exprs.map Expr.reset }

def bump (packets bytes : UInt64) (r : Rule) : Rule :=
  { r with exprs := r.exprs.map (Expr.bump packets bytes) }

/-- One line for the rule's place, then one for each expression and one for the comment. -/
def text (r : Rule) : String :=
  let handle := (r.handle.map fun h => s!" handle {h.toNat}").getD ""
  let comment := (r.comment.map fun c => s!"comment \"{c}\"").toList
  "\n  ".intercalate (s!"{r.table.text} {r.chain}{handle}" :: r.exprs.map Expr.text ++ comment)

@[simp]
theorem counterCount_reset (r : Rule) : r.reset.counterCount = r.counterCount := by
  simp only [counterCount, reset, List.countP_map]
  congr 1
  funext e
  cases e <;> rfl

end Rule

end FlowTally
