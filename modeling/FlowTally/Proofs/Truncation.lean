import FlowTally.Proofs.Framing
import FlowTally.Wire.Kind
/-!
# Datagrams that are cut off

A datagram may end inside a message. If the header of that message is there, reading fails at it,
whatever its payload says; if the cut is in the header itself, what is left of it is dropped like
bytes that belong to no message, and the messages in front of it are all that is read
(`Wire.Message.read_cut`).
-/

namespace FlowTally

namespace Wire

namespace Message

/-- The length that the message's header declares, which wraps at thirty-two bits. -/
def declared (m : Message) : Nat := (16 + m.payload.length) % 2 ^ 32

theorem declared_le_length_write (m : Message) : m.declared ≤ m.write.length := by
  have h : m.declared ≤ 16 + m.payload.length := Nat.mod_le _ _
  simp only [write, List.length_append, Bytes.length_ofNatLE, Bytes.zeros, List.length_replicate]
  omega

/-- The header of a message, and the bytes behind it. -/
theorem write_append (m : Message) (rest : Bytes) :
    m.write ++ rest = Bytes.ofNatLE 4 m.declared ++ Bytes.ofNatLE 2 m.kind.toNat ++
      Bytes.ofNatLE 2 m.flags.toNat ++ Bytes.ofNatLE 4 m.seq.toNat ++ Bytes.zeros 4 ++
      (m.payload ++ (Bytes.zeros (padding m.payload.length) ++ rest)) := by
  have hlength : Bytes.ofNatLE 4 m.declared = Bytes.ofNatLE 4 (16 + m.payload.length) :=
    Bytes.ofNatLE_mod 4 _
  rw [hlength]
  simp only [write, List.append_assoc]

/-! ## One message that is cut off -/

/-- What is left of a header is no message. -/
theorem readFrom_short {buf : Bytes} (h : buf.length < 16) (total offset : Nat) :
    readFrom total offset buf = .ok [] := by
  rw [readFrom, if_pos]
  rw [List.length_take]
  omega

/-- A header that is there in full tells that the message is not. -/
theorem readFrom_take_write {m : Message} {k : Nat} (h16 : 16 ≤ k) (hk : k < m.declared)
    (rest : Bytes) (total offset : Nat) :
    readFrom total offset ((m.write ++ rest).take k) =
      .error (.messageLength m.declared offset total) := by
  have hd : m.declared < 2 ^ 32 := Nat.mod_lt _ (by decide)
  obtain ⟨n, rfl⟩ : ∃ n, k = 16 + n := ⟨k - 16, by omega⟩
  rw [write_append, List.take_append, List.take_of_length_le (by simp [Bytes.zeros]),
    readFrom_head hd (by simp [Bytes.zeros]), if_pos]
  right
  simp only [List.length_take, List.length_append, Bytes.length_ofNatLE, Bytes.zeros,
    List.length_replicate]
  omega

/-! ## Datagrams -/

theorem take_datagram (before : List Message) (m : Message) (after : List Message) (k : Nat) :
    (datagram (before ++ m :: after)).take ((datagram before).length + k) =
      datagram before ++ (m.write ++ datagram after).take k := by
  have hsplit : datagram (before ++ m :: after) =
      datagram before ++ (m.write ++ datagram after) := by simp [datagram]
  rw [hsplit, List.take_length_add_append]

/-- The length of a datagram that is cut off inside a message. -/
theorem length_take_write {m : Message} {k : Nat} (hk : k < m.declared) (rest : Bytes) :
    ((m.write ++ rest).take k).length = k := by
  have hlength := m.declared_le_length_write
  rw [List.length_take, List.length_append]
  omega

section Cut
variable {before : List Message} (h : ∀ m ∈ before, m.Fits)
include h

/-- The messages in front of the cut are read as they were written. -/
theorem read_datagram_append (tail : Bytes) : read (datagram before ++ tail) =
    (readFrom ((datagram before).length + tail.length) (datagram before).length tail).map
      (before ++ ·) := by
  rw [read, List.length_append, readFrom_frames_append (frames_datagram h), Nat.zero_add]

/-- A datagram that ends inside a message, `k` bytes behind its start: in its payload that is an
error, in its header the message is left out. The messages behind it do not matter. -/
theorem read_cut {m : Message} {k : Nat} (hk : k < m.declared) (after : List Message) :
    read ((datagram (before ++ m :: after)).take ((datagram before).length + k)) =
      if k < 16 then .ok before
      else .error (.messageLength m.declared (datagram before).length
        ((datagram before).length + k)) := by
  rw [take_datagram, read_datagram_append h, length_take_write hk]
  split
  · next h16 =>
    rw [readFrom_short (by rwa [length_take_write hk])]
    simp [Except.map]
  · next h16 =>
    rw [readFrom_take_write (by omega) hk]
    rfl

end Cut

def dumpedRule : Message := ⟨MessageKind.newRule, Flag.multi, 1, header 2 0⟩

def dumpEnd : Message := ⟨MessageKind.done, Flag.multi, 1, Bytes.zeros 4⟩

theorem read_cut_payload :
    (∀ m ∈ [dumpedRule], m.Fits) ∧ 18 < dumpEnd.declared ∧
      read ((datagram [dumpedRule, dumpEnd]).take 38) = .error (.messageLength 20 20 38) := by
  have hf : ∀ m ∈ [dumpedRule], m.Fits := by decide
  have hk : 18 < dumpEnd.declared := by decide
  exact ⟨hf, hk, read_cut hf hk []⟩

/-- A rule of which only ten bytes have come is lost without an error. -/
theorem rule_dropped :
    read ((datagram [dumpedRule, dumpedRule]).take 30) = .ok [dumpedRule] := by
  decide +kernel

end Message

end Wire

end FlowTally
