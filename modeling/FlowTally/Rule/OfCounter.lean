import FlowTally.Counter
import FlowTally.Rule.Field
/-!
# The rule of a counter

A counter becomes one comparison for each thing it asks for, then a counter expression, with its
label as the comment. What does not apply is left out: ports without a protocol that has them, and
flags without TCP.
-/

namespace FlowTally.Rule

/-- Lets a rule go on only for packets with this value of the field. -/
def test (f : Field) (data : Bytes) : List Expr := [f.load, .compare .scratch .equal data]

def testAddress (v4 v6 : Field) : Option Address → List Expr
  | none => []
  | some (.v4 o) => test v4 o.bytes
  | some (.v6 o) => test v6 o.bytes

def testProtocol : Option Protocol → List Expr
  | none => []
  | some p => test .protocol [p.number]

def testPort (f : Field) (port : Option UInt16) : List Expr :=
  match Counter.askedPort port with
  | none => []
  | some p => test f (Bytes.ofNatBE 2 p.toNat)

/-- Compares the flag byte after dropping the flags that rules do not look at. -/
def testFlags (s : TcpFlags) : List Expr :=
  if s.isEmpty then []
  else [Field.flags.load, .bitwise .scratch .scratch 1 [TcpFlags.matchable.bits] [0],
    .compare .scratch .equal [s.bits]]

/-- All that a packet has to pass, in the order in which it is looked at. -/
def tests (c : Counter) : List Expr :=
  testAddress .sourceV4 .sourceV6 c.source
    ++ testAddress .destinationV4 .destinationV6 c.destination
    ++ testProtocol c.protocol
    ++ (if c.hasPorts then
        testPort .sourcePort c.sourcePort ++ testPort .destinationPort c.destinationPort
      else [])
    ++ (if c.isTcp then testFlags c.flags else [])

def ofCounter (chain : Chain) (c : Counter) : Rule where
  table := chain.table
  chain := chain.name
  exprs := tests c ++ [.counter 0 0]
  comment := some c.label

/-- The rules of a whole set, input first and each direction in order. -/
def ofCounters (input output : Chain) (s : CounterSet) : List (Direction × Rule) :=
  s.toList.map fun (d, c) =>
    (d, ofCounter (match d with | .input => input | .output => output) c)

end FlowTally.Rule
