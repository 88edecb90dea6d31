/-!
# Transport protocols

The protocols a counter can ask for, with their IANA numbers. `ofNumber?_eq_some_iff`
says that a number is read as a protocol exactly when it is that protocol's number.
-/

namespace FlowTally

inductive Protocol where
  | tcp
  | udp
  | icmp
  | icmpv6
  deriving DecidableEq, Repr

namespace Protocol

def all : List Protocol := [tcp, udp, icmp, icmpv6]

/-- The number a packet carries in its next-protocol field. -/
def number : Protocol → UInt8
  | tcp => 6
  | udp => 17
  | icmp => 1
  | icmpv6 => 58

def ofNumber? (n : UInt8) : Option Protocol := all.find? (·.number = n)

def name : Protocol → String
  | tcp => "tcp"
  | udp => "udp"
  | icmp => "icmp"
  | icmpv6 => "icmpv6"

/-- Names are read in lower case only. -/
def ofName? (s : String) : Option Protocol := all.find? (·.name = s)

/-- Whether the transport header starts with a source and a destination port. -/
def hasPorts : Protocol → Bool
  | tcp | udp => true
  | icmp | icmpv6 => false

@[simp]
theorem ofNumber?_number (p : Protocol) : ofNumber? p.number = some p := by
  cases p <;> decide

@[simp]
theorem ofName?_name (p : Protocol) : ofName? p.name = some p := by
  cases p <;> decide

theorem ofNumber?_eq_some_iff {n : UInt8} {p : Protocol} : ofNumber? n = some p ↔ p.number = n := by
  constructor
  · intro h
    simpa using List.find?_some h
  · rintro rfl
    exact ofNumber?_number p

end Protocol

end FlowTally
