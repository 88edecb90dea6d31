import FlowTally.Address
import FlowTally.Direction
import FlowTally.Family
import FlowTally.Protocol
/-!
# Packets

A packet as a hook sees it: its direction, its transport protocol and the bytes of its two headers.
-/

namespace FlowTally

structure Packet where
  direction : Direction
  protocol : UInt8
  network : Bytes
  transport : Bytes
  deriving DecidableEq, Repr

namespace Packet

/-- A network header of the version of the addresses. Unless both are of four octets it is one of
the newer version, with each address of four octets in its mapped form. -/
def networkHeader (protocol : Protocol) : Address → Address → Bytes
  | .v4 s, .v4 d =>
    [0x45] ++ Bytes.zeros 8 ++ [protocol.number] ++ Bytes.zeros 2 ++ s.bytes ++ d.bytes
  | s, d =>
    [0x60] ++ Bytes.zeros 5 ++ [protocol.number] ++ Bytes.zeros 1 ++ s.mapped.bytes
      ++ d.mapped.bytes

def build (direction : Direction) (protocol : Protocol) (source destination : Address)
    (transport : Bytes) : Packet :=
  ⟨direction, protocol.number, networkHeader protocol source destination, transport⟩

def ports (source destination : UInt16) : Bytes :=
  Bytes.ofNatBE 2 source.toNat ++ Bytes.ofNatBE 2 destination.toNat

/-- A segment with a bare header, whose byte 13 is `flags`. -/
def tcp (direction : Direction) (source destination : Address)
    (sourcePort destinationPort : UInt16) (flags : UInt8) : Packet :=
  build direction .tcp source destination
    (ports sourcePort destinationPort ++ Bytes.zeros 8 ++ [0x50, flags] ++ Bytes.zeros 6)

/-- An empty datagram. -/
def udp (direction : Direction) (source destination : Address)
    (sourcePort destinationPort : UInt16) : Packet :=
  build direction .udp source destination
    (ports sourcePort destinationPort ++ Bytes.ofNatBE 2 8 ++ Bytes.zeros 2)

/-- An echo request of the version of the source address. -/
def ping (direction : Direction) (source destination : Address) : Packet :=
  if source.isV4 then build direction .icmp source destination (8 :: Bytes.zeros 7)
  else build direction .icmpv6 source destination (128 :: Bytes.zeros 7)

/-- The length that a counter adds. -/
def length (p : Packet) : UInt64 := UInt64.ofNat (p.network.length + p.transport.length)

def isEmpty (p : Packet) : Bool := p.length == 0

/-- The version is in the upper half of the first byte. -/
def isV4 (p : Packet) : Bool := p.network.head?.any fun b : UInt8 => b >>> 4 == 4

end Packet

/-- Whether tables of the family see the packet. -/
def Family.carries : Family → Packet → Bool
  | ip, p => p.isV4
  | ip6, p => !p.isV4
  | inet, _ => true

end FlowTally
