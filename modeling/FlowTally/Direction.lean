/-!
# Directions

Traffic is counted where it enters the host and where it leaves it. The same two points are the
hooks a chain can be attached to.
-/

namespace FlowTally

inductive Direction where
  | input
  | output
  deriving DecidableEq, Repr

namespace Direction

def all : List Direction := [input, output]

def name : Direction → String
  | input => "input"
  | output => "output"

def ofName? (s : String) : Option Direction := all.find? (·.name = s)

/-- The number of the local-in or local-out hook. -/
def hookNumber : Direction → UInt32
  | input => 1
  | output => 3

def ofHookNumber? (n : UInt32) : Option Direction := all.find? (·.hookNumber = n)

@[simp]
theorem ofName?_name (d : Direction) : ofName? d.name = some d := by
  cases d <;> decide

@[simp]
theorem ofHookNumber?_hookNumber (d : Direction) : ofHookNumber? d.hookNumber = some d := by
  cases d <;> decide

theorem ofHookNumber?_eq_some_iff {n : UInt32} {d : Direction} :
    ofHookNumber? n = some d ↔ d.hookNumber = n := by
  constructor
  · intro h
    simpa using List.find?_some h
  · rintro rfl
    exact ofHookNumber?_hookNumber d

end Direction

end FlowTally
