import FlowTally.Netlink.Link
import FlowTally.Proofs.Attributes
import FlowTally.Wire.Batch
import Mathlib.Algebra.GroupWithZero.Nat
import Mathlib.Tactic.Conv
/-!
# Messages in datagrams

The messages of a datagram are read as they were written, and reading goes on behind them with
whatever follows (`Wire.Message.readFrom_frames_append`). Only a message that is cut off is read
with its place in the datagram, which its error names (`WireError.unplaced`).
-/

namespace FlowTally

/-- Going on from results that are the same but for their errors. -/
theorem mapError_bind_congr {ε ε' α β : Type} {g : ε → ε'} {x y : Except ε α}
    (h : x.mapError g = y.mapError g) (f : α → Except ε β) :
    (x.bind f).mapError g = (y.bind f).mapError g := by
  cases x with
  | error e =>
    cases y with
    | error e' => exact congrArg Except.error (Except.error.inj h)
    | ok a' => cases h
  | ok a =>
    cases y with
    | error e' => cases h
    | ok a' => rw [Except.ok.inj h]

/-- The error without the place in the datagram that it names. -/
def WireError.unplaced : WireError → WireError
  | .messageLength length _ _ => .messageLength length 0 0
  | e => e

namespace Wire

namespace Message

/-- The length of the message has room in its thirty-two bits. -/
def Fits (m : Message) : Prop := 16 + m.payload.length < 2 ^ 32
  deriving Decidable

theorem padding_sixteen_add (n : Nat) : padding (16 + n) = padding n := by
  unfold padding
  omega

/-! ## Reading what was written -/

/-- A header, and what it says of the bytes behind it. -/
theorem readFrom_head {length : Nat} (hl : length < 2 ^ 32) {port : Bytes} (hport : port.length = 4)
    (kind flags : UInt16) (seq : UInt32) (total offset : Nat) (body : Bytes) :
    readFrom total offset (Bytes.ofNatLE 4 length ++ Bytes.ofNatLE 2 kind.toNat ++
        Bytes.ofNatLE 2 flags.toNat ++ Bytes.ofNatLE 4 seq.toNat ++ port ++ body) =
      if length < 16 ∨ body.length < length - 16 then .error (.messageLength length offset total)
      else
        (readFrom total (offset + (length + padding length))
          (body.drop (length - 16 + padding length))).map
            (⟨kind, flags, seq, body.take (length - 16)⟩ :: ·) := by
  generalize hbuf : Bytes.ofNatLE 4 length ++ Bytes.ofNatLE 2 kind.toNat ++
    Bytes.ofNatLE 2 flags.toNat ++ Bytes.ofNatLE 4 seq.toNat ++ port ++ body = buf
  -- each field is at its place in the sixteen bytes of the header
  have hfull : ¬ (buf.take 16).length < 16 := by
    rw [← hbuf]
    simp [hport]
    omega
  have hlength : Bytes.toNatLE (buf.take 4) = length := by
    rw [← hbuf]
    exact (Bytes.toNatLE_ofNatLE 4 length).trans (Nat.mod_eq_of_lt hl)
  have hkind : Bytes.toNatLE ((buf.drop 4).take 2) = kind.toNat := by
    rw [← hbuf]
    exact (Bytes.toNatLE_ofNatLE 2 _).trans (Nat.mod_eq_of_lt kind.toNat_lt)
  have hflags : Bytes.toNatLE ((buf.drop 6).take 2) = flags.toNat := by
    rw [← hbuf]
    exact (Bytes.toNatLE_ofNatLE 2 _).trans (Nat.mod_eq_of_lt flags.toNat_lt)
  have hseq : Bytes.toNatLE ((buf.drop 8).take 4) = seq.toNat := by
    rw [← hbuf]
    exact (Bytes.toNatLE_ofNatLE 4 _).trans (Nat.mod_eq_of_lt seq.toNat_lt)
  have hbody : buf.drop 16 = body := by
    rw [← hbuf]
    exact List.drop_left' (by simp [hport])
  rw [readFrom, if_neg hfull]
  have hcut : min (length - 16) body.length < length - 16 ↔ body.length < length - 16 := by omega
  simp only [hlength, hkind, hflags, hseq, hbody, List.length_take, hcut]
  split
  · rfl
  · next h =>
    have hnext : buf.drop (length + padding length) =
        body.drop (length - 16 + padding length) := by
      rw [← hbody, List.drop_drop]
      congr 1
      omega
    rw [hnext, UInt16.ofNat_toNat, UInt16.ofNat_toNat, UInt32.ofNat_toNat]
    cases readFrom total _ _ <;> rfl

/-- The bytes of a message with any port and padding. -/
def frame (m : Message) (port pad : Bytes) : Bytes :=
  Bytes.ofNatLE 4 (16 + m.payload.length) ++ Bytes.ofNatLE 2 m.kind.toNat
    ++ Bytes.ofNatLE 2 m.flags.toNat ++ Bytes.ofNatLE 4 m.seq.toNat ++ port ++ m.payload ++ pad

theorem readFrom_frame_append {m : Message} (h : m.Fits) {port pad : Bytes}
    (hport : port.length = 4) (hpad : pad.length = padding m.payload.length) (total offset : Nat) (rest : Bytes) :
    readFrom total offset (m.frame port pad ++ rest) =
      (readFrom total (offset + (m.frame port pad).length) rest).map (m :: ·) := by
  have hbody : m.frame port pad ++ rest = Bytes.ofNatLE 4 (16 + m.payload.length) ++
      Bytes.ofNatLE 2 m.kind.toNat ++ Bytes.ofNatLE 2 m.flags.toNat ++
      Bytes.ofNatLE 4 m.seq.toNat ++ port ++ (m.payload ++ (pad ++ rest)) := by
    simp only [frame, List.append_assoc]
  have hlength : (m.frame port pad).length =
      16 + m.payload.length + padding m.payload.length := by
    simp only [frame, List.length_append, Bytes.length_ofNatLE, hport, hpad]
  rw [hbody, readFrom_head h hport, hlength, padding_sixteen_add, Nat.add_sub_cancel_left,
    if_neg (by simp), List.take_left, ← List.drop_drop, List.drop_left, List.drop_left' hpad]

/-! ## Datagrams -/

/-- The bytes are those of messages one after the other. -/
inductive Frames : Bytes → List Message → Prop where
  | nil : Frames [] []
  | cons {m : Message} {port pad bytes : Bytes} {ms : List Message} (hm : m.Fits)
    (hport : port.length = 4) (hpad : pad.length = padding m.payload.length)
    (h : Frames bytes ms) : Frames (m.frame port pad ++ bytes) (m :: ms)

theorem frames_datagram {ms : List Message} (h : ∀ m ∈ ms, m.Fits) : Frames (datagram ms) ms := by
  induction ms with
  | nil => exact .nil
  | cons m ms ih =>
    rw [List.forall_mem_cons] at h
    exact .cons h.1 (by simp [Bytes.zeros]) (by simp [Bytes.zeros]) (ih h.2)

theorem readFrom_frames_append {bytes : Bytes} {ms : List Message} (h : Frames bytes ms)
    (total : Nat) (tail : Bytes) : ∀ offset, readFrom total offset (bytes ++ tail) =
      (readFrom total (offset + bytes.length) tail).map (ms ++ ·) := by
  induction h with
  | nil =>
    intro offset
    rw [List.nil_append, List.length_nil, Nat.add_zero]
    cases readFrom total offset tail <;> rfl
  | cons hm hport hpad _ ih =>
    intro offset
    rw [List.append_assoc, readFrom_frame_append hm hport hpad, ih, List.length_append,
      Nat.add_assoc]
    cases readFrom total _ tail <;> rfl

theorem readFrom_nil (total offset : Nat) : readFrom total offset [] = .ok [] := by
  rw [readFrom]
  rfl

theorem read_datagram {ms : List Message} (h : ∀ m ∈ ms, m.Fits) : read (datagram ms) = .ok ms := by
  have hframes := readFrom_frames_append (frames_datagram h) (datagram ms).length [] 0
  rwa [readFrom_nil, Except.map, List.append_nil, List.append_nil] at hframes

/-- Where in a datagram its bytes are matters only to the place that an error names. -/
theorem readFrom_unplaced (total offset total' offset' : Nat) (buf : Bytes) :
    (readFrom total offset buf).mapError WireError.unplaced =
      (readFrom total' offset' buf).mapError WireError.unplaced := by
  fun_induction readFrom total offset buf generalizing offset' with
  | case1 offset buf h => rw [readFrom, if_pos h]
  | case2 offset buf h length payload hl =>
    rw [readFrom, if_neg h]
    simp only
    rw [if_pos hl]
    rfl
  | case3 offset buf h length field payload hl step ih =>
    -- the other place moves along by the same step
    have hrest := ih (offset' + step)
    conv_rhs => rw [readFrom, if_neg h]
    simp only
    rw [if_neg hl]
    exact mapError_bind_congr hrest _

/-- So what can be read can be read anywhere. -/
theorem readFrom_of_read {buf : Bytes} {ms : List Message} (h : read buf = .ok ms)
    (total offset : Nat) : readFrom total offset buf = .ok ms := by
  have hplace := readFrom_unplaced total offset buf.length 0 buf
  rw [← read, h] at hplace
  cases hr : readFrom total offset buf with
  | error e => rw [hr] at hplace; cases hplace
  | ok ms' => rw [hr] at hplace; exact hplace

end Message

end Wire

end FlowTally
