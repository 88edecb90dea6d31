import FlowTally.Rule
/-!
# Layouts

Where the counter rules live: one table with a base chain for each direction.
-/

namespace FlowTally

structure Layout where
  family : Family := .ip
  tableName : String := "flowmon"
  inputChain : String := "input"
  outputChain : String := "output"
  priority : Int32 := -300
  deriving DecidableEq, Repr, Inhabited

namespace Layout

def table (l : Layout) : Table := ⟨l.family, l.tableName⟩

def chainName (l : Layout) : Direction → String
  | .input => l.inputChain
  | .output => l.outputChain

def chain (l : Layout) (d : Direction) : Chain := .base l.table (l.chainName d) d l.priority

end Layout

end FlowTally
