import FlowTally.Bytes
/-!
# IP addresses

An address is four or sixteen octets. `ofOctets?_octets` and `octets_of_ofOctets?` say that the
octets alone determine it: their number tells the version.
-/

namespace FlowTally

/-- A byte string of a fixed length. -/
structure Octets (n : Nat) where
  bytes : Bytes
  length_eq : bytes.length = n
  deriving DecidableEq, Repr

namespace Octets

def ofBytes? (n : Nat) (bs : Bytes) : Option (Octets n) :=
  if h : bs.length = n then some ⟨bs, h⟩ else none

@[ext]
theorem ext {n : Nat} {a b : Octets n} (h : a.bytes = b.bytes) : a = b := by
  cases a; cases b; cases h; rfl

@[simp]
theorem ofBytes?_bytes {n : Nat} (o : Octets n) : ofBytes? n o.bytes = some o := by
  simp [ofBytes?, o.length_eq]

end Octets

inductive Address where
  | v4 (octets : Octets 4)
  | v6 (octets : Octets 16)
  deriving DecidableEq, Repr

namespace Address

/-- In network order. -/
def octets : Address → Bytes
  | v4 o => o.bytes
  | v6 o => o.bytes

def width : Address → Nat
  | v4 _ => 4
  | v6 _ => 16

def isV4 : Address → Bool
  | v4 _ => true
  | v6 _ => false

/-- The address with these octets, if there are four or sixteen of them. -/
def ofOctets? (bs : Bytes) : Option Address :=
  if h : bs.length = 4 then some (v4 ⟨bs, h⟩)
  else if h : bs.length = 16 then some (v6 ⟨bs, h⟩)
  else none

@[simp]
theorem length_octets (a : Address) : a.octets.length = a.width := by
  cases a with
  | v4 o => exact o.length_eq
  | v6 o => exact o.length_eq

@[simp]
theorem ofOctets?_octets (a : Address) : ofOctets? a.octets = some a := by
  cases a with
  | v4 o => simp [ofOctets?, octets, o.length_eq]
  | v6 o => simp [ofOctets?, octets, o.length_eq]

theorem octets_of_ofOctets? {bs : Bytes} {a : Address} (h : ofOctets? bs = some a) : a.octets = bs := by
  unfold ofOctets? at h
  split at h
  · cases h; rfl
  · split at h
    · cases h; rfl
    · cases h

/-- The sixteen octets under which a packet of the newer version carries the address. An address
of four octets is carried behind ten zero octets and two of all ones. -/
def mapped : Address → Octets 16
  | v4 o => ⟨Bytes.zeros 10 ++ [0xff, 0xff] ++ o.bytes, by simp [Bytes.zeros, o.length_eq]⟩
  | v6 o => o

end Address

end FlowTally
