import FlowTally.Proofs.Matching
/-!
# The bytes that compiled rules look at

`Counter.Selects` says byte by byte, without registers or fields, what a packet has to look like for
a compiled rule to count it: an address is looked for behind 12 or 8 bytes of the network header if
it is the source, and behind 16 or 24 if it is the destination, the ports open the transport header,
and the flags are its byte 13. The headers are any bytes. One that is too short to have what is
looked for fails that test and no other. `evaluate_ofCounter` says what becomes of the rule.
-/

namespace FlowTally

/-! ## Bytes in place -/

/-- From the offset on the header has all of the bytes. -/
def Bytes.HasAt (header : Bytes) (offset : Nat) (bs : Bytes) : Prop :=
  ∀ i, i < bs.length → header[offset + i]? = bs[i]?

namespace Bytes

theorem slice?_eq_some_iff {header bs : Bytes} {offset len : Nat} (hl : bs.length = len)
    (hpos : 0 < len) : header.slice? offset len = some bs ↔ header.HasAt offset bs := by
  subst hl
  unfold slice?
  constructor
  · intro h i hi
    split at h
    · have hbs : (header.drop offset).take bs.length = bs := Option.some.inj h
      rw [← hbs, List.getElem?_take_of_lt hi, List.getElem?_drop]
    · cases h
  · intro h
    -- The last byte is there, so the header is long enough.
    have hlast : offset + (bs.length - 1) < header.length := by
      refine Nat.lt_of_not_le fun hge => ?_
      have hbyte := h (bs.length - 1) (by omega)
      rw [List.getElem?_eq_none (by omega), List.getElem?_eq_getElem (by omega)] at hbyte
      cases hbyte
    rw [if_pos (by omega)]
    congr 1
    refine List.ext_getElem? fun i => ?_
    by_cases hi : i < bs.length
    · rw [List.getElem?_take_of_lt hi, List.getElem?_drop, h i hi]
    · rw [List.getElem?_eq_none (by simp; omega), List.getElem?_eq_none (by omega)]

theorem slice?_one (header : Bytes) (offset : Nat) :
    header.slice? offset 1 = header[offset]?.map ([·]) := by
  unfold slice?
  split
  · next h =>
    rw [List.getElem?_eq_getElem (by omega), List.take_one, List.head?_drop,
      List.getElem?_eq_getElem (by omega)]
    rfl
  · next h =>
    rw [List.getElem?_eq_none (by omega)]
    rfl

/-- A port as the header has it, high byte first. -/
theorem ofNatBE_port (n : UInt16) : ofNatBE 2 n.toNat = [(n >>> 8).toUInt8, n.toUInt8] := by
  have hhigh : UInt8.ofNat (n.toNat / 256) = (n >>> 8).toUInt8 := by
    apply UInt8.toNat_inj.1
    simp [Nat.shiftRight_eq_div_pow]
  simp [ofNatBE, ofNatLE, hhigh]

end Bytes

/-! ## Packets -/

/-- What the bytes of a packet have to be for each thing that the counter asks for. -/
structure Counter.Selects (c : Counter) (p : Packet) : Prop where
  sourceV4 : ∀ o, c.source = some (.v4 o) → p.network.HasAt 12 o.bytes
  sourceV6 : ∀ o, c.source = some (.v6 o) → p.network.HasAt 8 o.bytes
  destinationV4 : ∀ o, c.destination = some (.v4 o) → p.network.HasAt 16 o.bytes
  destinationV6 : ∀ o, c.destination = some (.v6 o) → p.network.HasAt 24 o.bytes
  protocol : ∀ q, c.protocol = some q → p.protocol = q.number
  sourcePort : c.protocol = some .tcp ∨ c.protocol = some .udp → ∀ n, c.sourcePort = some n →
    n ≠ 0 → p.transport.HasAt 0 [(n >>> 8).toUInt8, n.toUInt8]
  destinationPort : c.protocol = some .tcp ∨ c.protocol = some .udp → ∀ n,
    c.destinationPort = some n → n ≠ 0 → p.transport.HasAt 2 [(n >>> 8).toUInt8, n.toUInt8]
  flags : c.protocol = some .tcp → c.flags.bits ≠ 0 →
    ∃ b, p.transport[13]? = some b ∧ b &&& 0x17 = c.flags.bits

namespace Counter

variable (c : Counter)

theorem hasPorts_iff_tcp_or_udp :
    c.hasPorts = true ↔ c.protocol = some .tcp ∨ c.protocol = some .udp := by
  unfold hasPorts
  cases c.protocol with
  | none => simp
  | some q => cases q <;> simp [Protocol.hasPorts]

theorem mem_askedPort_iff {port : Option UInt16} {n : UInt16} :
    n ∈ askedPort port ↔ port = some n ∧ n ≠ 0 := by
  simp [askedPort, Option.mem_def, Option.filter_eq_some_iff]

end Counter

namespace Packet

variable (p : Packet)

theorem field?_eq_some_iff {f : Field} {base : HeaderBase} {offset : UInt32} {header bs : Bytes}
    (hplace : f.place = some (base, offset)) (hheader : p.header base = some header)
    (hl : bs.length = f.width) : p.field? f = some bs ↔ header.HasAt offset.toNat bs := by
  rw [field?, hplace]
  simp only [hheader, Option.bind_some]
  exact Bytes.slice?_eq_some_iff hl (by cases f <;> decide)

/-- An address is in the place for its version. -/
theorem address_iff (v4 v6 : Field) {offset₄ offset₆ : UInt32} (address : Option Address)
    (h₄ : v4.place = some (.network, offset₄)) (hw₄ : v4.width = 4)
    (h₆ : v6.place = some (.network, offset₆)) (hw₆ : v6.width = 16) :
    (∀ a ∈ address, p.field? (if a.isV4 then v4 else v6) = some a.octets) ↔
      (∀ o, address = some (.v4 o) → p.network.HasAt offset₄.toNat o.bytes) ∧
      ∀ o, address = some (.v6 o) → p.network.HasAt offset₆.toNat o.bytes := by
  have hv4 (o : Octets 4) := p.field?_eq_some_iff h₄ rfl (o.length_eq.trans hw₄.symm)
  have hv6 (o : Octets 16) := p.field?_eq_some_iff h₆ rfl (o.length_eq.trans hw₆.symm)
  constructor
  · exact fun h => ⟨fun o ho => (hv4 o).1 (h _ ho), fun o ho => (hv6 o).1 (h _ ho)⟩
  · rintro ⟨h4, h6⟩ a ha
    cases a with
    | v4 o => exact (hv4 o).2 (h4 o ha)
    | v6 o => exact (hv6 o).2 (h6 o ha)

theorem port_iff (f : Field) {offset : UInt32} (port : Option UInt16)
    (h : f.place = some (.transport, offset)) (hw : f.width = 2) :
    (∀ n ∈ Counter.askedPort port, p.field? f = some (Bytes.ofNatBE 2 n.toNat)) ↔
      ∀ n, port = some n → n ≠ 0 →
        p.transport.HasAt offset.toNat [(n >>> 8).toUInt8, n.toUInt8] := by
  simp only [Counter.mem_askedPort_iff, and_imp, Bytes.ofNatBE_port]
  refine forall_congr' fun n => imp_congr_right fun _ => imp_congr_right fun _ => ?_
  exact p.field?_eq_some_iff h rfl hw.symm

theorem combine_flags_iff {bits : UInt8} :
    (p.field? .flags).map (combine · [TcpFlags.matchable.bits] [0]) = some [bits] ↔
      ∃ b, p.transport[13]? = some b ∧ b &&& 0x17 = bits := by
  have hf : p.field? .flags = p.transport[13]?.map ([·]) := Bytes.slice?_one p.transport 13
  rw [hf]
  cases p.transport[13]? <;> simp [combine, TcpFlags.matchable]

theorem matches_iff_selects (c : Counter) : c.Matches p ↔ c.Selects p := by
  have hsource := p.address_iff .sourceV4 .sourceV6 c.source rfl rfl rfl rfl
  have hdestination := p.address_iff .destinationV4 .destinationV6 c.destination rfl rfl rfl rfl
  have hprotocol (q : Protocol) :
      p.field? .protocol = some [q.number] ↔ p.protocol = q.number := by
    simp [field?, Field.place]
  have hsourcePort := p.port_iff .sourcePort c.sourcePort rfl rfl
  have hdestinationPort := p.port_iff .destinationPort c.destinationPort rfl rfl
  have hports := c.hasPorts_iff_tcp_or_udp
  have hflags : c.flags.isEmpty = false ↔ c.flags.bits ≠ 0 := by simp [TcpFlags.isEmpty]
  constructor
  · intro h
    exact {
      sourceV4 := (hsource.1 h.source).1
      sourceV6 := (hsource.1 h.source).2
      destinationV4 := (hdestination.1 h.destination).1
      destinationV6 := (hdestination.1 h.destination).2
      protocol := fun q hq => (hprotocol q).1 (h.protocol q hq)
      sourcePort := fun hp => hsourcePort.1 (h.sourcePort (hports.2 hp))
      destinationPort := fun hp => hdestinationPort.1 (h.destinationPort (hports.2 hp))
      flags := fun ht hf => p.combine_flags_iff.1 (h.flags (Counter.isTcp_iff.2 ht) (hflags.2 hf)) }
  · intro h
    exact {
      source := hsource.2 ⟨h.sourceV4, h.sourceV6⟩
      destination := hdestination.2 ⟨h.destinationV4, h.destinationV6⟩
      protocol := fun q hq => (hprotocol q).2 (h.protocol q hq)
      sourcePort := fun hp => hsourcePort.2 (h.sourcePort (hports.1 hp))
      destinationPort := fun hp => hdestinationPort.2 (h.destinationPort (hports.1 hp))
      flags := fun ht hf => p.combine_flags_iff.2 (h.flags (Counter.isTcp_iff.1 ht) (hflags.1 hf)) }

/-- No byte is left with a flag that rules do not look at. -/
theorem not_selects_of_unmatchable {c : Counter} (htcp : c.protocol = some .tcp) {f : TcpFlag}
    (hf : f ∉ [TcpFlag.fin, .syn, .rst, .ack]) (hc : c.flags.contains f = true) :
    ¬ c.Selects p := by
  intro h
  have hbit : c.flags.bits &&& f.bit ≠ 0 := by simpa [TcpFlags.contains] using hc
  have hne : c.flags.bits ≠ 0 := fun h0 => hbit (by rw [h0, UInt8.zero_and])
  obtain ⟨b, -, hb⟩ := h.flags htcp hne
  have hmask : (0x17 : UInt8) &&& f.bit = 0 := by cases f <;> first | rfl | simp at hf
  rw [← hb, UInt8.and_assoc, hmask, UInt8.and_zero] at hbit
  exact hbit rfl

/-- The rule of a counter has one counter expression. A packet whose bytes are those that the
counter asks for is counted there once, with its length, and any other leaves the rule alone. With a
flag that rules do not look at, the rule of a TCP counter counts no packet. -/
theorem evaluate_ofCounter (chain : Chain) (c : Counter) :
    (Rule.ofCounter chain c).counterCount = 1 ∧
      (c.Selects p → p.evaluate (Rule.ofCounter chain c) =
        (Rule.installed chain c none 1 p.length, 1)) ∧
      (¬ c.Selects p → p.evaluate (Rule.ofCounter chain c) = (Rule.ofCounter chain c, 0)) ∧
      ∀ f ∈ c.flags.toList, f ∉ [TcpFlag.fin, .syn, .rst, .ack] → c.protocol = some .tcp →
        p.evaluate (Rule.ofCounter chain c) = (Rule.ofCounter chain c, 0) := by
  have hrule : Rule.ofCounter chain c = Rule.installed chain c none 0 0 := rfl
  have hleft (h : ¬ c.Selects p) :
      p.evaluate (Rule.ofCounter chain c) = (Rule.ofCounter chain c, 0) := by
    rw [hrule, evaluate_installed, if_neg (mt (p.matches_iff_selects c).1 h)]
  refine ⟨?_, fun h => ?_, hleft, fun f hf hmem htcp => ?_⟩
  · rw [hrule, Rule.counterCount_installed]
  · rw [hrule, evaluate_installed, if_pos ((p.matches_iff_selects c).2 h), UInt64.zero_add,
      UInt64.zero_add]
  · exact hleft (p.not_selects_of_unmatchable htcp hmem (TcpFlags.mem_toList_iff.1 hf))

/-- A segment with data to a web server. -/
def push : Packet :=
  .tcp .input (.v4 ⟨[203, 0, 113, 9], rfl⟩) (.v4 ⟨[203, 0, 113, 80], rfl⟩) 40000 443 0x18

theorem evaluate_ofCounter_push :
    let chain := Chain.base ⟨.inet, "web"⟩ "input" .input 0
    let served : Counter := { protocol := some .tcp, destinationPort := some 443 }
    let pushed : Counter := { protocol := some .tcp, flags := .ofList [.psh] }
    push.evaluate (Rule.ofCounter chain served) = (Rule.installed chain served none 1 40, 1) ∧
      { push with transport := push.transport.take 3 }.evaluate (Rule.ofCounter chain served) =
        (Rule.ofCounter chain served, 0) ∧
      push.evaluate (Rule.ofCounter chain pushed) = (Rule.ofCounter chain pushed, 0) := by
  intro chain served pushed
  have hserved := (push.matches_iff_selects served).1 (by decide)
  have hcut := mt ({ push with transport := push.transport.take 3 }.matches_iff_selects served).2
    (by decide)
  exact ⟨(evaluate_ofCounter push chain served).2.1 hserved,
    (evaluate_ofCounter _ chain served).2.2.1 hcut,
    (evaluate_ofCounter push chain pushed).2.2.2 .psh (by decide) (by decide) rfl⟩

end Packet

end FlowTally
