import FlowTally.Proofs.Blaming
import FlowTally.Proofs.HeaderBytes
import Mathlib.Data.List.Pairwise
/-!
# Counters that packets can match

A packet for a counter is put together from the pieces that the counter asks for, which works if no
two of them want different bytes in one place (`exists_header`). Of the pieces for a counter only a
source address of sixteen octets and a destination address of four lie over each other
(`Counter.Clashes`), and only tables of both versions of IP take the two of them together.
`never_counted` says which accepted counters no packet matches, and for which of them there is a
warning.
-/

namespace FlowTally

/-! ## Pieces of a header -/

/-- Bytes that a header is to have from an offset on. -/
structure Piece where
  offset : Nat
  bytes : Bytes

namespace Piece

def at? (q : Piece) (i : Nat) : Option UInt8 :=
  if q.offset ≤ i then q.bytes[i - q.offset]? else none

theorem at?_offset_add (q : Piece) (i : Nat) : q.at? (q.offset + i) = q.bytes[i]? := by
  rw [at?, if_pos (Nat.le_add_right ..), Nat.add_sub_cancel_left]

theorem at?_eq_some_bounds {q : Piece} {i : Nat} {b : UInt8} (h : q.at? i = some b) :
    q.offset ≤ i ∧ i < q.offset + q.bytes.length := by
  unfold at? at h
  split at h
  · next hle =>
    have hlt := (List.getElem?_eq_some_iff.1 h).1
    omega
  · cases h

/-- Nowhere do the pieces want different bytes. -/
def Agrees (q r : Piece) : Prop := ∀ i b b', q.at? i = some b → r.at? i = some b' → b = b'

instance : Std.Symm Agrees := ⟨fun _ _ h i b b' hb hb' => (h i b' b hb' hb).symm⟩

theorem agrees_self (q : Piece) : q.Agrees q :=
  fun _ _ _ hb hb' => Option.some.inj (hb.symm.trans hb')

theorem agrees_of_le {q r : Piece} (h : q.offset + q.bytes.length ≤ r.offset) : q.Agrees r := by
  intro i b b' hb hb'
  have := (at?_eq_some_bounds hb).2
  have := (at?_eq_some_bounds hb').1
  omega

end Piece

/-- A header that has one piece in its place. -/
def Bytes.Has (header : Bytes) (q : Piece) : Prop := header.HasAt q.offset q.bytes

/-- One header has all pieces if no two of them want different bytes in one place. -/
theorem exists_header {pieces : List Piece} (h : pieces.Pairwise Piece.Agrees) :
    ∃ header : Bytes, ∀ q ∈ pieces, header.Has q := by
  have hall : ∀ ⦃q⦄, q ∈ pieces → ∀ ⦃r⦄, r ∈ pieces → q.Agrees r :=
    h.forall_of_forall fun q _ => q.agrees_self
  -- past the last piece nothing is wanted
  obtain ⟨n, hn⟩ : ∃ n, ∀ q ∈ pieces, q.offset + q.bytes.length ≤ n :=
    ⟨(pieces.map fun q => q.offset + q.bytes.length).max?.getD 0,
      fun q hq => List.le_max?_getD_of_mem (List.mem_map_of_mem hq)⟩
  refine ⟨(List.range n).map fun i => (pieces.findSome? (·.at? i)).getD 0, fun q hq i hi => ?_⟩
  have hlt : q.offset + i < n := by
    have := hn q hq
    omega
  have hwant : q.at? (q.offset + i) = some q.bytes[i] := by
    rw [q.at?_offset_add, List.getElem?_eq_getElem hi]
  rw [List.getElem?_map, List.getElem?_range hlt, List.getElem?_eq_getElem hi, Option.map_some]
  cases hfound : pieces.findSome? (·.at? (q.offset + i)) with
  | none => cases hwant.symm.trans (List.findSome?_eq_none_iff.1 hfound q hq)
  | some b =>
    obtain ⟨r, hr, hb⟩ := List.exists_of_findSome?_eq_some hfound
    rw [Option.getD_some, hall hr hq _ _ _ hb hwant]

/-! ## The pieces for a counter -/

namespace Address

def sourcePiece : Address → Piece
  | v4 o => ⟨12, o.bytes⟩
  | v6 o => ⟨8, o.bytes⟩

def destinationPiece : Address → Piece
  | v4 o => ⟨16, o.bytes⟩
  | v6 o => ⟨24, o.bytes⟩

end Address

namespace Counter

/-- The counter asks for a source of sixteen octets and a destination of four, which are not those
that the source has in their place. -/
def Clashes (c : Counter) : Prop :=
  ∃ s o, c.source = some (.v6 s) ∧ c.destination = some (.v4 o) ∧
    (s.bytes.drop 8).take 4 ≠ o.bytes

/-- The first byte is that of the headers that tables of the family see. -/
def networkPieces (family : Family) (c : Counter) : List Piece :=
  ⟨0, [if family = .ip then 0x45 else 0x60]⟩ ::
    ((c.source.map Address.sourcePiece).toList ++
      (c.destination.map Address.destinationPiece).toList)

def portPiece (offset : Nat) (n : UInt16) : Piece := ⟨offset, [(n >>> 8).toUInt8, n.toUInt8]⟩

def transportPieces (c : Counter) : List Piece :=
  (c.sourcePort.map (portPiece 0)).toList ++ ((c.destinationPort.map (portPiece 2)).toList ++
    [⟨13, [c.flags.bits]⟩])

theorem agrees_addresses {s d : Address}
    (h : ∀ o o', s = .v6 o → d = .v4 o' → (o.bytes.drop 8).take 4 = o'.bytes) :
    s.sourcePiece.Agrees d.destinationPiece := by
  cases s with
  | v4 o =>
    refine Piece.agrees_of_le ?_
    cases d <;> simp [Address.sourcePiece, Address.destinationPiece, o.length_eq]
  | v6 o =>
    cases d with
    | v6 o' => exact Piece.agrees_of_le (by
        simp [Address.sourcePiece, Address.destinationPiece, o.length_eq])
    | v4 o' =>
      intro i b b' hb hb'
      obtain ⟨hle, hlt⟩ := Piece.at?_eq_some_bounds hb'
      simp only [Address.destinationPiece, o'.length_eq] at hle hlt
      -- what stands behind eight octets of the source is the destination
      obtain ⟨j, rfl⟩ := Nat.exists_eq_add_of_le hle
      have hj : o'.bytes[j]? = o.bytes[8 + j]? := by
        rw [← h o o' rfl rfl, List.getElem?_take_of_lt (by omega), List.getElem?_drop]
      have hsource : (Address.v6 o).sourcePiece.at? (16 + j) = o.bytes[8 + j]? := by
        have := (Address.v6 o).sourcePiece.at?_offset_add (8 + j)
        rwa [Address.sourcePiece, ← Nat.add_assoc] at this
      have hdestination : (Address.v4 o').destinationPiece.at? (16 + j) = o'.bytes[j]? :=
        (Address.v4 o').destinationPiece.at?_offset_add j
      rw [hsource] at hb
      rw [hdestination, hj] at hb'
      exact Option.some.inj (hb.symm.trans hb')

variable {c : Counter}

theorem pairwise_networkPieces (family : Family) (h : ¬ c.Clashes) :
    (c.networkPieces family).Pairwise Piece.Agrees := by
  have hfirst (b : UInt8) : (∀ a : Address, (⟨0, [b]⟩ : Piece).Agrees a.sourcePiece) ∧
      ∀ a : Address, (⟨0, [b]⟩ : Piece).Agrees a.destinationPiece :=
    ⟨fun a => Piece.agrees_of_le (by cases a <;> simp [Address.sourcePiece]),
      fun a => Piece.agrees_of_le (by cases a <;> simp [Address.destinationPiece])⟩
  unfold networkPieces
  cases hs : c.source with
  | none => cases hd : c.destination <;> simp [hfirst]
  | some s =>
    cases hd : c.destination with
    | none => simp [hfirst]
    | some d =>
      have hagree : s.sourcePiece.Agrees d.destinationPiece := by
        refine agrees_addresses fun o o' hso hdo => ?_
        subst hso hdo
        exact not_not.1 fun hne => h ⟨o, o', hs, hd, hne⟩
      simp [hfirst, hagree]

theorem pairwise_transportPieces (c : Counter) : c.transportPieces.Pairwise Piece.Agrees := by
  have hports (n m : UInt16) : (portPiece 0 n).Agrees (portPiece 2 m) :=
    Piece.agrees_of_le (Nat.le_refl 2)
  have hflags (n : UInt16) (b : UInt8) : (portPiece 0 n).Agrees ⟨13, [b]⟩ ∧
      (portPiece 2 n).Agrees ⟨13, [b]⟩ :=
    ⟨Piece.agrees_of_le (by simp [portPiece]), Piece.agrees_of_le (by simp [portPiece])⟩
  unfold transportPieces
  cases c.sourcePort <;> cases c.destinationPort <;> simp [hports, hflags]

/-! ## Counters with a packet -/

theorem and_eq_left_of_and_not {b mask : UInt8} (h : b &&& ~~~mask = 0) : b &&& mask = b := by
  refine UInt8.toBitVec_inj.1 (BitVec.eq_of_getElem_eq fun i hi => ?_)
  have hbit : (b &&& ~~~mask).toBitVec[i] = false := by
    rw [h]
    exact BitVec.getElem_zero hi
  simp only [UInt8.toBitVec_and, UInt8.toBitVec_not, BitVec.getElem_and,
    BitVec.getElem_not] at hbit ⊢
  cases hb : b.toBitVec[i] with
  | false => rfl
  | true => simpa [hb] using hbit

/-- Tables see headers with the version of their family in front. -/
theorem carries_of_has {family : Family} {p : Packet}
    (h : p.network.Has ⟨0, [if family = .ip then 0x45 else 0x60]⟩) : family.carries p := by
  have hhead : p.network.head? = some (if family = .ip then 0x45 else 0x60) := by
    rw [List.head?_eq_getElem?]
    exact h 0 Nat.zero_lt_one
  cases family with
  | inet => rfl
  | ip | ip6 =>
    simp only [Family.carries, Packet.isV4, hhead]
    rfl

theorem neverMatches?_eq_none_iff :
    c.neverMatches? = none ↔ (c.protocol = some .tcp → c.flags.bits &&& ~~~0x17 = 0) := by
  simp [neverMatches?]

/-- Some packet that tables of the family see has all that the counter asks for. -/
theorem exists_selects (family : Family) (d : Direction) (hflags : c.neverMatches? = none)
    (hclash : ¬ c.Clashes) :
    ∃ p : Packet, p.direction = d ∧ family.carries p ∧ c.Selects p := by
  obtain ⟨network, hnetwork⟩ := exists_header (pairwise_networkPieces family hclash)
  obtain ⟨transport, htransport⟩ := exists_header c.pairwise_transportPieces
  simp only [networkPieces, transportPieces, List.forall_mem_cons, List.forall_mem_append,
    Option.mem_toList, Option.map_eq_some_iff, forall_exists_index, and_imp,
    forall_apply_eq_imp_iff₂] at hnetwork htransport
  obtain ⟨hversion, hsource, hdestination⟩ := hnetwork
  obtain ⟨hsourcePort, hdestinationPort, hbyte, -⟩ := htransport
  let protocol : UInt8 := (c.protocol.map Protocol.number).getD 0
  refine ⟨⟨d, protocol, network, transport⟩, rfl, carries_of_has hversion, ?_⟩
  exact {
    sourceV4 := fun o ho => hsource _ ho
    sourceV6 := fun o ho => hsource _ ho
    destinationV4 := fun o ho => hdestination _ ho
    destinationV6 := fun o ho => hdestination _ ho
    protocol := fun q hq => by simp [protocol, hq]
    sourcePort := fun _ n hn _ => hsourcePort n hn
    destinationPort := fun _ n hn _ => hdestinationPort n hn
    flags := fun htcp _ => ⟨_, hbyte 0 Nat.zero_lt_one,
      and_eq_left_of_and_not (neverMatches?_eq_none_iff.1 hflags htcp)⟩ }

theorem not_selects_of_clashes (h : c.Clashes) (p : Packet) : ¬ c.Selects p := by
  obtain ⟨s, o, hs, ho, hne⟩ := h
  intro hsel
  refine hne (List.ext_getElem? fun i => ?_)
  by_cases hi : i < 4
  · -- both addresses want the byte at the same place
    have hsource := hsel.sourceV6 s hs (8 + i) (by rw [s.length_eq]; omega)
    have hdestination := hsel.destinationV4 o ho i (by rwa [o.length_eq])
    rw [List.getElem?_take_of_lt hi, List.getElem?_drop, ← hsource, ← Nat.add_assoc, hdestination]
  · rw [List.getElem?_eq_none (by simp; omega),
      List.getElem?_eq_none (by rw [o.length_eq]; omega)]

/-- A flag that rules do not look at is gone from what they compare. -/
theorem not_selects_of_neverMatches (h : c.neverMatches? ≠ none) (p : Packet) : ¬ c.Selects p := by
  rw [ne_eq, neverMatches?_eq_none_iff, Classical.not_imp] at h
  obtain ⟨htcp, hlost⟩ := h
  intro hsel
  have hne : c.flags.bits ≠ 0 := fun h0 => hlost (by rw [h0, UInt8.zero_and])
  obtain ⟨b, -, hb⟩ := hsel.flags htcp hne
  have hmask : (0x17 : UInt8) &&& ~~~0x17 = 0 := rfl
  exact hlost (by rw [← hb, UInt8.and_assoc, hmask, UInt8.and_zero])

theorem exists_selects_iff (family : Family) (d : Direction) :
    (∃ p : Packet, p.direction = d ∧ family.carries p ∧ c.Selects p) ↔
      c.neverMatches? = none ∧ ¬ c.Clashes := by
  constructor
  · rintro ⟨p, -, -, hsel⟩
    exact ⟨not_not.1 fun h => not_selects_of_neverMatches h p hsel,
      fun h => not_selects_of_clashes h p hsel⟩
  · exact fun h => exists_selects family d h.1 h.2

/-- Addresses of both versions go into tables of both versions only. -/
theorem eq_inet_of_clashes {family : Family} (hc : c.WellFormed family) (h : c.Clashes) :
    family = .inet := by
  obtain ⟨s, o, hs, ho, -⟩ := h
  have hsource : family.accepts (.v6 s) := hc.source _ hs
  have hdestination : family.accepts (.v4 o) := hc.destination _ ho
  cases family with
  | ip => cases hsource
  | ip6 => cases hdestination
  | inet => rfl

end Counter

theorem Packet.evaluate_eq_self_iff (p : Packet) (chain : Chain) (c : Counter) :
    p.evaluate (Rule.ofCounter chain c) = (Rule.ofCounter chain c, 0) ↔ ¬ c.Selects p := by
  have hrule : Rule.ofCounter chain c = Rule.installed chain c none 0 0 := rfl
  rw [hrule, evaluate_installed, ← p.matches_iff_selects c]
  by_cases h : c.Matches p <;> simp [h]

namespace Config

theorem warnings_of_validate {c : Config} (h : c.validate.value = .ok ()) :
    c.validate.warnings = c.counters.toList.filterMap fun x => x.2.neverMatches? := by
  have hwarned (d : Direction) : warned d (.ok ()) (c.counters.get d).zipIdx =
      (c.counters.get d).filterMap Counter.neverMatches? := by
    conv_rhs => rw [← List.zipIdx_map_fst 0 (c.counters.get d), List.filterMap_map]
    rfl
  rw [warnings_validate, h, Direction.all]
  simp only [List.flatMap_cons, List.flatMap_nil, List.append_nil, hwarned, CounterSet.toList,
    List.filterMap_append, List.filterMap_map]
  rfl

/-- An accepted configuration is warned of for the counters with flags that rules do not look at.
No packet is counted for these, nor for the counters that ask for addresses that do not go into one
header, and for all others some packet is. -/
theorem never_counted (c : Config) (h : c.validate.value = .ok ()) :
    (c.validate.warnings = c.counters.toList.filterMap fun x => x.2.neverMatches?) ∧
      ∀ d, ∀ k ∈ c.counters.get d,
        ((∀ p : Packet, p.direction = d → c.layout.family.carries p →
            p.evaluate (Rule.ofCounter (c.layout.chain d) k) =
              (Rule.ofCounter (c.layout.chain d) k, 0)) ↔
          k.neverMatches? ≠ none ∨ k.Clashes) ∧
        (k.Clashes → c.layout.family = .inet) := by
  refine ⟨warnings_of_validate h, fun d k hk => ⟨?_, ?_⟩⟩
  · simp only [Packet.evaluate_eq_self_iff]
    rw [← not_iff_not, not_or, not_not, ← k.exists_selects_iff c.layout.family d]
    simp
  · exact Counter.eq_inet_of_clashes ((accepted_of_validate h).wellFormed d k hk)

/-- Into a network of the newer version, to an address of the older. -/
def crossing : Counter :=
  { label := "crossing"
    source := some (.v6 ⟨[0x20, 0x01, 0x0d, 0xb8, 0, 0, 0, 0, 0, 0, 0, 0, 0, 0, 0, 42], rfl⟩)
    destination := some (.v4 ⟨[198, 51, 100, 42], rfl⟩) }

def pushed : Counter := { label := "pushed", protocol := some .tcp, flags := .ofList [.psh] }

def everything : Counter := { label := "everything" }

def bothVersions : Config :=
  { layout := { family := .inet }, counters := ⟨[crossing, pushed, everything], []⟩ }

theorem crossing_clashes : crossing.Clashes := ⟨_, _, rfl, rfl, by decide⟩

theorem never_counted_bothVersions :
    let rule := Rule.ofCounter (bothVersions.layout.chain .input)
    bothVersions.validate.value = .ok () ∧
      bothVersions.validate.warnings = [.neverMatches "pushed" (.ofList [.psh])] ∧
      (∀ k ∈ [crossing, pushed], ∀ p : Packet, p.direction = .input →
        p.evaluate (rule k) = (rule k, 0)) ∧
      ∃ p : Packet, p.direction = .input ∧ p.evaluate (rule everything) ≠ (rule everything, 0) := by
  intro rule
  have h : bothVersions.validate.value = .ok () := by decide +kernel
  obtain ⟨hwarnings, hcounted⟩ := never_counted bothVersions h
  have hinput := hcounted .input
  have hall : bothVersions.counters.get .input = [crossing, pushed, everything] := rfl
  rw [hall] at hinput
  simp only [List.forall_mem_cons] at hinput
  obtain ⟨⟨hcrossing, -⟩, ⟨hpushed, -⟩, ⟨heverything, -⟩, -⟩ := hinput
  refine ⟨h, hwarnings.trans (by decide), ?_, ?_⟩
  · rw [List.forall_mem_cons, List.forall_mem_singleton]
    exact ⟨fun p hp => hcrossing.2 (.inr crossing_clashes) p hp rfl,
      fun p hp => hpushed.2 (.inl (by decide)) p hp rfl⟩
  · have hnot : ¬ (everything.neverMatches? ≠ none ∨ everything.Clashes) := by
      rintro (hwarned | ⟨s, o, hs, -⟩)
      · exact hwarned rfl
      · cases hs
    by_contra hnone
    exact hnot (heverything.1 fun p hp _ => not_not.1 fun hne => hnone ⟨p, hp, hne⟩)

/-- There is no warning for the first counter. -/
theorem crossing_unwarned :
    bothVersions.validate.value = .ok () ∧
      bothVersions.validate.warnings = [.neverMatches "pushed" (.ofList [.psh])] ∧
      crossing ∈ bothVersions.counters.get .input ∧ crossing.neverMatches? = none ∧
      ∀ p : Packet, p.evaluate (Rule.ofCounter (bothVersions.layout.chain .input) crossing) =
        (Rule.ofCounter (bothVersions.layout.chain .input) crossing, 0) := by
  exact ⟨by decide +kernel, by decide +kernel, by decide, by decide, fun p =>
    (p.evaluate_eq_self_iff _ _).2 (Counter.not_selects_of_clashes crossing_clashes p)⟩

end Config

end FlowTally
