import FlowTally.Proofs.Attributes
import FlowTally.Wire.Batch
import Mathlib.Algebra.GroupWithZero.Nat
import Mathlib.Data.List.Nodup
import Mathlib.Data.List.Range
/-!
# The numbers of requests

The messages of a batch have the numbers that follow the last one used, from its first marker to its
second (`Wire.map_seq_batchMessages`), and those between the markers are waited for
(`Wire.acknowledged_batchMessages`). Numbers do not come again before they wrap
(`Wire.nodup_following`).
-/

namespace FlowTally.Wire

/-! ## Numbers that follow one -/

theorem following_add (last : UInt32) (k i : Nat) :
    following (last + UInt32.ofNat k) i = following last (k + i) := by
  rw [following, following, UInt32.add_assoc, ← UInt32.ofNat_add, Nat.add_assoc]

theorem following_inj {last : UInt32} {i j : Nat} (hi : i < 2 ^ 32) (hj : j < 2 ^ 32) :
    following last i = following last j ↔ i = j := by
  constructor
  · intro h
    have hn := congrArg UInt32.toNat ((UInt32.add_right_inj last).1 h)
    rw [UInt32.toNat_ofNat', UInt32.toNat_ofNat'] at hn
    omega
  · rintro rfl
    rfl

theorem nodup_following (last : UInt32) {n : Nat} (h : n ≤ 2 ^ 32) :
    ((List.range n).map (following last)).Nodup := by
  refine List.Nodup.map_on (fun i hi j hj he => ?_) List.nodup_range
  rw [List.mem_range] at hi hj
  exact (following_inj (by omega) (by omega)).1 he

/-! ## Batches -/

variable {seq : Nat → UInt32} {b : Batch} {e : Edit} {m : Message} {ms : List Message}

theorem map_seq_number (seq : Nat → UInt32) (messages : List Message) :
    (number seq messages).map Message.seq = (List.range messages.length).map seq := by
  refine List.ext_getElem ?_ fun i _ _ => ?_
  · simp [number]
  · simp [number]

theorem ack_of_writeEdit (h : writeEdit e = .ok m) : m.flags &&& Flag.ack ≠ 0 := by
  cases e <;> simp only [writeEdit, map_eq_ok_iff] at h <;> obtain ⟨payload, -, rfl⟩ := h <;>
    dsimp only <;> decide

theorem batchMessages_eq_ok_iff : batchMessages seq b = .ok ms ↔
    ∃ edits, List.Forall₂ (fun e m => writeEdit e = .ok m) b edits ∧
      number seq (marker MessageKind.batchBegin :: edits ++ [marker MessageKind.batchEnd]) =
        ms := by
  simp only [batchMessages, bind_eq_ok_iff, pure_eq_ok_iff, mapM_eq_ok_iff]

theorem map_seq_batchMessages (h : batchMessages seq b = .ok ms) :
    ms.map Message.seq = (List.range (b.length + 2)).map seq := by
  obtain ⟨edits, hedits, rfl⟩ := batchMessages_eq_ok_iff.1 h
  rw [map_seq_number]
  simp [hedits.length_eq]

/-- The edits are acknowledged, the markers are not. -/
theorem acknowledged_batchMessages (h : batchMessages seq b = .ok ms) :
    acknowledged ms = (List.range b.length).map fun i => seq (i + 1) := by
  obtain ⟨edits, hedits, rfl⟩ := batchMessages_eq_ok_iff.1 h
  have hnumber : number seq (marker MessageKind.batchBegin :: edits ++
      [marker MessageKind.batchEnd]) = { marker MessageKind.batchBegin with seq := seq 0 } ::
        (number (fun i => seq (i + 1)) edits ++
          [{ marker MessageKind.batchEnd with seq := seq (edits.length + 1) }]) := by
    simp [number, List.mapIdx_append]
  have hflags : ∀ m ∈ number (fun i => seq (i + 1)) edits, m.flags &&& Flag.ack ≠ 0 := by
    intro m hm
    obtain ⟨i, hi, rfl⟩ := List.mem_mapIdx.1 hm
    have hb : i < b.length := hedits.length_eq ▸ hi
    have hack := ack_of_writeEdit (hedits.get hb hi)
    exact hack
  have hmarker (kind : UInt16) (n : UInt32) :
      ({ marker kind with seq := n } : Message).flags &&& Flag.ack = 0 := by
    show Flag.request &&& Flag.ack = 0
    decide
  rw [acknowledged, hnumber, List.filter_cons_of_neg (by simp [hmarker]), List.filter_append,
    List.filter_eq_self.2 (by simpa using hflags), List.filter_cons_of_neg (by simp [hmarker]),
    List.filter_nil, List.append_nil, map_seq_number, hedits.length_eq]

theorem numbersUsed_of_batchMessages (h : batchMessages seq b = .ok ms) :
    numbersUsed b = b.length + 2 := by
  obtain ⟨edits, hedits, -⟩ := batchMessages_eq_ok_iff.1 h
  rw [numbersUsed, mapM_eq_ok_iff.2 hedits, hedits.length_eq]

/-- A batch has messages if each of its edits has one. -/
theorem exists_batchMessages_iff :
    (∃ ms, batchMessages seq b = .ok ms) ↔ ∀ e ∈ b, ∃ m, writeEdit e = .ok m := by
  rw [← exists_forall₂_iff]
  constructor
  · rintro ⟨ms, h⟩
    obtain ⟨edits, hedits, -⟩ := batchMessages_eq_ok_iff.1 h
    exact ⟨edits, hedits⟩
  · rintro ⟨edits, hedits⟩
    exact ⟨_, batchMessages_eq_ok_iff.2 ⟨edits, hedits, rfl⟩⟩

end FlowTally.Wire
