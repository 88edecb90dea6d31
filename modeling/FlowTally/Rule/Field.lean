import FlowTally.Rule
/-!
# Header fields

The packet fields that rules compare, with the place each is loaded from. Writing a rule and
reading it back go by this one table, and `ofLoad?_eq_some_iff` says that a place names a field
only if it is that field's place.
-/

namespace FlowTally

inductive Field where
  | protocol
  | sourceV4
  | sourceV6
  | destinationV4
  | destinationV6
  | sourcePort
  | destinationPort
  | flags
  deriving DecidableEq, Repr

namespace Field

/-- The fields that are part of a header. -/
def inHeader : List Field :=
  [sourceV4, sourceV6, destinationV4, destinationV6, sourcePort, destinationPort, flags]

def width : Field → Nat
  | protocol | flags => 1
  | sourcePort | destinationPort => 2
  | sourceV4 | destinationV4 => 4
  | sourceV6 | destinationV6 => 16

/-- The header and the offset in it; the protocol is known without looking into a header. -/
def place : Field → Option (HeaderBase × UInt32)
  | protocol => none
  | sourceV4 => some (.network, 12)
  | sourceV6 => some (.network, 8)
  | destinationV4 => some (.network, 16)
  | destinationV6 => some (.network, 24)
  | sourcePort => some (.transport, 0)
  | destinationPort => some (.transport, 2)
  | flags => some (.transport, 13)

/-- The expression that loads the field into the scratch register. -/
def load (f : Field) : Expr :=
  match f.place with
  | none => .metadata .protocol .scratch
  | some (base, offset) => .payload base offset (UInt32.ofNat f.width) .scratch

/-- The field that a payload load reads. -/
def ofLoad? (base : HeaderBase) (offset length : UInt32) : Option Field :=
  inHeader.find? fun f => f.place = some (base, offset) ∧ UInt32.ofNat f.width = length

def name : Field → String
  | protocol => "protocol"
  | sourceV4 | sourceV6 => "src_addr"
  | destinationV4 | destinationV6 => "dst_addr"
  | sourcePort => "src_port"
  | destinationPort => "dst_port"
  | flags => "tcp_flags"

theorem ofLoad?_eq_some_iff {base : HeaderBase} {offset length : UInt32} {f : Field} :
    ofLoad? base offset length = some f ↔
      f.place = some (base, offset) ∧ UInt32.ofNat f.width = length := by
  constructor
  · intro h
    simpa using List.find?_some h
  · rintro ⟨hp, rfl⟩
    cases f <;> simp [place] at hp <;> obtain ⟨rfl, rfl⟩ := hp <;> rfl

end Field

end FlowTally
