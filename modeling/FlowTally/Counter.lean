import FlowTally.Address.Text
import FlowTally.Direction
import FlowTally.Protocol
import FlowTally.TcpFlags
/-!
# Counters

A counter names a piece of traffic by its label and says what a packet must look like to be
counted. `Counter.attributes` are the labels under which its totals are published.
-/

namespace FlowTally

/-- A traffic counter. The direction and the totals are set on a counter that was read back. -/
structure Counter where
  label : String := ""
  source : Option Address := none
  destination : Option Address := none
  protocol : Option Protocol := none
  sourcePort : Option UInt16 := none
  destinationPort : Option UInt16 := none
  flags : TcpFlags := TcpFlags.empty
  direction : Option Direction := none
  packets : UInt64 := 0
  bytes : UInt64 := 0
  deriving DecidableEq, Repr, Inhabited

namespace Counter

/-- Whether the ports take part in the match. -/
def hasPorts (c : Counter) : Bool := c.protocol.any Protocol.hasPorts

/-- Whether the TCP flags take part in the match. -/
def isTcp (c : Counter) : Bool := c.protocol == some .tcp

/-- A port that takes part in a match: zero asks for nothing. -/
def askedPort (port : Option UInt16) : Option UInt16 := port.filter (· ≠ 0)

/-- The published labels, in a fixed order and without those that say nothing. -/
def attributes (c : Counter) : List (String × String) :=
  let port (name : String) (p : Option UInt16) : Option (String × String) :=
    if c.hasPorts then (askedPort p).map fun p => (name, toString p.toNat) else none
  [c.direction.map fun d => ("direction", d.name),
   if c.label.isEmpty then none else some ("label", c.label),
   c.source.map fun a => ("src_addr", a.text),
   c.destination.map fun a => ("dst_addr", a.text),
   c.protocol.map fun p => ("protocol", p.name),
   port "src_port" c.sourcePort,
   port "dst_port" c.destinationPort,
   if c.flags.isEmpty then none else some ("flags", c.flags.text)].filterMap id

end Counter

/-- The counters of both directions, each list in the order in which its rules are installed. -/
structure CounterSet where
  input : List Counter := []
  output : List Counter := []
  deriving DecidableEq, Repr, Inhabited

namespace CounterSet

def get (s : CounterSet) : Direction → List Counter
  | .input => s.input
  | .output => s.output

/-- Every counter with its direction, input first. -/
def toList (s : CounterSet) : List (Direction × Counter) :=
  s.input.map (Direction.input, ·) ++ s.output.map (Direction.output, ·)

def size (s : CounterSet) : Nat := s.input.length + s.output.length

def isEmpty (s : CounterSet) : Bool := s.input.isEmpty && s.output.isEmpty

theorem length_toList (s : CounterSet) : s.toList.length = s.size := by
  simp [toList, size]

theorem mem_toList_iff {s : CounterSet} {d : Direction} {c : Counter} :
    (d, c) ∈ s.toList ↔ c ∈ s.get d := by
  cases d <;> simp [toList, get]

end CounterSet

end FlowTally
