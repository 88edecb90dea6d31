import FlowTally.Bytes
import FlowTally.Wire.Error
import FlowTally.Wire.Attribute
/-!
# Messages

A datagram is a list of messages, each a header of sixteen bytes and a payload, padded to four
bytes. `Message.read` is the inverse of writing; a message that the datagram does not hold in full
is an error, and fewer than sixteen bytes at the end are dropped.
-/

namespace FlowTally.Wire

structure Message where
  kind : UInt16
  flags : UInt16
  seq : UInt32
  payload : Bytes
  deriving DecidableEq, Repr

namespace Message

def write (m : Message) : Bytes :=
  Bytes.ofNatLE 4 (16 + m.payload.length) ++ Bytes.ofNatLE 2 m.kind.toNat
    ++ Bytes.ofNatLE 2 m.flags.toNat ++ Bytes.ofNatLE 4 m.seq.toNat ++ Bytes.zeros 4 ++ m.payload
    ++ Bytes.zeros (padding m.payload.length)

/-- Reads the messages of the part of a datagram that starts at an offset. -/
def readFrom (total offset : Nat) (buf : Bytes) : Except WireError (List Message) :=
  if (buf.take 16).length < 16 then .ok []
  else
    let length := Bytes.toNatLE (buf.take 4)
    let field (start width : Nat) : Nat := Bytes.toNatLE ((buf.drop start).take width)
    let payload := (buf.drop 16).take (length - 16)
    if length < 16 ∨ payload.length < length - 16 then
      .error (.messageLength length offset total)
    else do
      let step := length + padding length
      let rest ← readFrom total (offset + step) (buf.drop step)
      return ⟨UInt16.ofNat (field 4 2), UInt16.ofNat (field 6 2), UInt32.ofNat (field 8 4),
        payload⟩ :: rest
termination_by buf.length
decreasing_by
  have full : ¬(buf.take 16).length < 16 := by assumption
  simp only [List.length_take] at full
  simp only [List.length_drop]
  omega

def read (datagram : Bytes) : Except WireError (List Message) :=
  readFrom datagram.length 0 datagram

/-- The error number of an error message. It is sent negated, and zero acknowledges a request. The
least number of four bytes is its own negative. -/
def errorCode (m : Message) : Except WireError Int :=
  if m.payload.length < 4 then .error .shortError
  else .ok (-Int32.ofNat (Bytes.toNatLE (m.payload.take 4))).toInt

end Message

end FlowTally.Wire
