import FlowTally.Proofs.Acceptance
import FlowTally.Proofs.Matching
/-!
# What counters count

Traffic is a packet as its sender describes it, and a counter says which traffic is to be counted
(`Counter.Describes`). The offset of an address in a header depends on the version of IP, which a
rule does not look at. So in a table that sees both versions, a test for an address of four octets
is also made on packets of the newer version, where it compares part of the source address
(`Counter.Confuses`). `deliver_counts_iff` says that a rule counts what its counter describes and
what it confuses with that, and nothing else.
-/

namespace FlowTally

/-! ## Traffic -/

/-- What a sender puts behind the network header. -/
inductive Payload where
  | tcp (sourcePort destinationPort : UInt16) (flags : UInt8)
  | udp (sourcePort destinationPort : UInt16)
  | ping
  deriving DecidableEq, Repr

namespace Payload

def sourcePort? : Payload → Option UInt16
  | tcp s _ _ | udp s _ => some s
  | ping => none

def destinationPort? : Payload → Option UInt16
  | tcp _ d _ | udp _ d => some d
  | ping => none

def flags? : Payload → Option UInt8
  | tcp _ _ flags => some flags
  | udp .. | ping => none

end Payload

/-- A packet as its sender describes it. Both ends have addresses of one version of IP. -/
structure Traffic where
  direction : Direction
  source : Address
  destination : Address
  payload : Payload
  sameVersion : source.isV4 = destination.isV4

namespace Traffic

def protocol (t : Traffic) : Protocol :=
  match t.payload with
  | .tcp .. => .tcp
  | .udp .. => .udp
  | .ping => if t.source.isV4 then .icmp else .icmpv6

def packet (t : Traffic) : Packet :=
  match t.payload with
  | .tcp sourcePort destinationPort flags =>
    .tcp t.direction t.source t.destination sourcePort destinationPort flags
  | .udp sourcePort destinationPort =>
    .udp t.direction t.source t.destination sourcePort destinationPort
  | .ping => .ping t.direction t.source t.destination

/-- The address is not of the packet's version, but where a test for it looks the packet has the
same four octets. -/
def LooksFrom (t : Traffic) (a : Address) : Prop :=
  a.isV4 ∧ t.source.isV4 = false ∧ a.octets = (t.source.octets.drop 4).take 4

/-- As `LooksFrom`, for the destination, which a test also finds within the source address. -/
def LooksTo (t : Traffic) (a : Address) : Prop :=
  a.isV4 ∧ t.source.isV4 = false ∧ a.octets = (t.source.octets.drop 8).take 4

end Traffic

/-! ## What a counter says -/

/-- The counter describes the traffic as far as it says anything but addresses. -/
structure Counter.DescribesPayload (c : Counter) (t : Traffic) : Prop where
  protocol : ∀ q ∈ c.protocol, q = t.protocol
  sourcePort : ∀ n ∈ c.sourcePort, t.payload.sourcePort? = some n
  destinationPort : ∀ n ∈ c.destinationPort, t.payload.destinationPort? = some n
  flags : c.flags.isEmpty = false →
    ∃ b, t.payload.flags? = some b ∧ b &&& TcpFlags.matchable.bits = c.flags.bits

/-- The traffic is what the counter asks for. -/
structure Counter.Describes (c : Counter) (t : Traffic) : Prop extends c.DescribesPayload t where
  source : ∀ a ∈ c.source, a = t.source
  destination : ∀ a ∈ c.destination, a = t.destination

/-- The traffic is not what the counter asks for, but has the octets of its addresses where a rule
looks for them. -/
structure Counter.Confuses (c : Counter) (t : Traffic) : Prop extends c.DescribesPayload t where
  source : ∀ a ∈ c.source, a = t.source ∨ t.LooksFrom a
  destination : ∀ a ∈ c.destination, a = t.destination ∨ t.LooksTo a
  confused : (∃ a ∈ c.source, t.LooksFrom a) ∨ ∃ a ∈ c.destination, t.LooksTo a

/-! ## Reading a packet's headers -/

namespace Bytes

theorem slice?_append (before bs behind : Bytes) {start k len : Nat}
    (hs : start = before.length + k) (hk : k + len ≤ bs.length) :
    slice? (before ++ bs ++ behind) start len = some ((bs.drop k).take len) := by
  subst hs
  unfold slice?
  rw [if_pos (by simp only [List.length_append]; omega), List.append_assoc, ← List.drop_drop,
    List.drop_left, List.drop_append_of_le_length (by omega),
    List.take_append_of_le_length (by rw [List.length_drop]; omega)]

theorem slice?_append_whole (before bs behind : Bytes) {start len : Nat}
    (hs : start = before.length) (hl : bs.length = len) :
    slice? (before ++ bs ++ behind) start len = some bs := by
  subst hl
  rw [slice?_append before bs behind (k := 0) hs (by omega), List.drop_zero, List.take_length]

theorem slice?_eq_none {bs : Bytes} {start len : Nat} (h : bs.length < start + len) :
    slice? bs start len = none := if_neg (by omega)

end Bytes

namespace Packet

section Version4
variable (protocol : Protocol) (s d : Octets 4)

theorem source_networkHeader_v4 :
    (networkHeader protocol (.v4 s) (.v4 d)).slice? 12 4 = some s.bytes :=
  Bytes.slice?_append_whole ([0x45] ++ Bytes.zeros 8 ++ [protocol.number] ++ Bytes.zeros 2) s.bytes
    d.bytes rfl s.length_eq

theorem destination_networkHeader_v4 :
    (networkHeader protocol (.v4 s) (.v4 d)).slice? 16 4 = some d.bytes := by
  have h : Bytes.slice? _ 16 4 = some d.bytes := Bytes.slice?_append_whole
    ([0x45] ++ Bytes.zeros 8 ++ [protocol.number] ++ Bytes.zeros 2 ++ s.bytes) d.bytes []
    (by simp [Bytes.zeros, s.length_eq]) d.length_eq
  rwa [List.append_nil] at h

theorem length_networkHeader_v4 : (networkHeader protocol (.v4 s) (.v4 d)).length = 20 := by
  simp [networkHeader, Bytes.zeros, s.length_eq, d.length_eq]

end Version4

section Version6
variable (protocol : Protocol) (s d : Octets 16)

theorem source_networkHeader_v6 :
    (networkHeader protocol (.v6 s) (.v6 d)).slice? 8 16 = some s.bytes :=
  Bytes.slice?_append_whole ([0x60] ++ Bytes.zeros 5 ++ [protocol.number] ++ Bytes.zeros 1) s.bytes
    d.bytes rfl s.length_eq

/-- Behind the first eight bytes stands the source address. -/
theorem within_source_networkHeader_v6 {start k : Nat} (hs : start = 8 + k) (hk : k + 4 ≤ 16) :
    (networkHeader protocol (.v6 s) (.v6 d)).slice? start 4 = some ((s.bytes.drop k).take 4) :=
  Bytes.slice?_append ([0x60] ++ Bytes.zeros 5 ++ [protocol.number] ++ Bytes.zeros 1) s.bytes
    d.bytes
    hs (by rw [s.length_eq]; exact hk)

theorem destination_networkHeader_v6 :
    (networkHeader protocol (.v6 s) (.v6 d)).slice? 24 16 = some d.bytes := by
  have h : Bytes.slice? _ 24 16 = some d.bytes := Bytes.slice?_append_whole
    ([0x60] ++ Bytes.zeros 5 ++ [protocol.number] ++ Bytes.zeros 1 ++ s.bytes) d.bytes []
    (by simp [Bytes.zeros, s.length_eq]) d.length_eq
  rwa [List.append_nil] at h

end Version6

end Packet

namespace Traffic

variable (t : Traffic)

theorem direction_packet : t.packet.direction = t.direction := by
  unfold packet
  split <;> try rfl
  unfold Packet.ping
  split <;> rfl

theorem protocol_packet : t.packet.protocol = t.protocol.number := by
  unfold packet protocol
  cases t.payload <;> try rfl
  simp only [Packet.ping]
  split <;> rfl

theorem network_packet :
    t.packet.network = Packet.networkHeader t.protocol t.source t.destination := by
  unfold packet protocol
  cases t.payload <;> try rfl
  simp only [Packet.ping]
  split <;> rfl

/-- Both ends in octets, of one version or the other. -/
theorem version_cases :
    (∃ s d, t.source = .v4 s ∧ t.destination = .v4 d) ∨
      ∃ s d, t.source = .v6 s ∧ t.destination = .v6 d := by
  have h := t.sameVersion
  cases hs : t.source with
  | v4 s =>
    cases hd : t.destination with
    | v4 d => exact .inl ⟨s, d, rfl, rfl⟩
    | v6 d => rw [hs, hd] at h; cases h
  | v6 s =>
    cases hd : t.destination with
    | v4 d => rw [hs, hd] at h; cases h
    | v6 d => exact .inr ⟨s, d, rfl, rfl⟩

theorem isV4_packet : t.packet.isV4 = t.source.isV4 := by
  unfold Packet.isV4
  rw [network_packet]
  rcases t.version_cases with ⟨s, d, hs, hd⟩ | ⟨s, d, hs, hd⟩ <;> rw [hs, hd] <;> rfl

/-! ## What the tests of a rule find -/

theorem field?_network {f : Field} {offset : UInt32} (h : f.place = some (.network, offset)) :
    t.packet.field? f =
      (Packet.networkHeader t.protocol t.source t.destination).slice? offset.toNat f.width := by
  simp [Packet.field?, h, Packet.header, network_packet]

/-- A test for an address finds the real one where it is. In a packet of the newer version, a test
for an address of the older one looks at other octets. -/
theorem field?_address_eq_iff {v4 v6 : Field} {real : Address} {within : Bytes}
    (hv : t.source.isV4 = real.isV4)
    (h4 : t.packet.field? v4 = some (if real.isV4 then real.octets else within))
    (h6 : t.packet.field? v6 = if real.isV4 then none else some real.octets) (a : Address) :
    t.packet.field? (if a.isV4 then v4 else v6) = some a.octets ↔
      a = real ∨ a.isV4 ∧ t.source.isV4 = false ∧ a.octets = within := by
  rw [hv]
  cases real with
  | v4 r =>
    cases a with
    | v4 o => simp [Address.isV4, Address.octets, h4, Octets.ext_iff, eq_comm]
    | v6 o => simp [Address.isV4, h6]
  | v6 r =>
    cases a with
    | v4 o => simp [Address.isV4, Address.octets, h4, eq_comm]
    | v6 o => simp [Address.isV4, Address.octets, h6, Octets.ext_iff, eq_comm]

theorem field?_source_eq_iff (a : Address) :
    t.packet.field? (if a.isV4 then .sourceV4 else .sourceV6) = some a.octets ↔
      a = t.source ∨ t.LooksFrom a := by
  refine t.field?_address_eq_iff rfl ?_ ?_ a
  · rw [t.field?_network rfl]
    rcases t.version_cases with ⟨s, d, hs, hd⟩ | ⟨s, d, hs, hd⟩ <;> rw [hs, hd]
    · exact Packet.source_networkHeader_v4 _ s d
    · exact Packet.within_source_networkHeader_v6 _ s d rfl (by decide)
  · rw [t.field?_network rfl]
    rcases t.version_cases with ⟨s, d, hs, hd⟩ | ⟨s, d, hs, hd⟩ <;> rw [hs, hd]
    · exact Bytes.slice?_eq_none (by rw [Packet.length_networkHeader_v4]; decide)
    · exact Packet.source_networkHeader_v6 _ s d

theorem field?_destination_eq_iff (a : Address) :
    t.packet.field? (if a.isV4 then .destinationV4 else .destinationV6) = some a.octets ↔
      a = t.destination ∨ t.LooksTo a := by
  refine t.field?_address_eq_iff t.sameVersion ?_ ?_ a
  · rw [t.field?_network rfl]
    rcases t.version_cases with ⟨s, d, hs, hd⟩ | ⟨s, d, hs, hd⟩ <;> rw [hs, hd]
    · exact Packet.destination_networkHeader_v4 _ s d
    · exact Packet.within_source_networkHeader_v6 _ s d rfl (by decide)
  · rw [t.field?_network rfl]
    rcases t.version_cases with ⟨s, d, hs, hd⟩ | ⟨s, d, hs, hd⟩ <;> rw [hs, hd]
    · exact Bytes.slice?_eq_none (by rw [Packet.length_networkHeader_v4]; decide)
    · exact Packet.destination_networkHeader_v6 _ s d

theorem field?_protocol_eq_iff (q : Protocol) :
    t.packet.field? .protocol = some [q.number] ↔ q = t.protocol := by
  have h : t.packet.field? .protocol = some [t.protocol.number] := by rw [← protocol_packet]; rfl
  rw [h]
  constructor
  · intro hq
    have hn : t.protocol.number = q.number := by simpa using hq
    have ho := Protocol.ofNumber?_number q
    rw [← hn, Protocol.ofNumber?_number] at ho
    exact (Option.some.inj ho).symm
  · rintro rfl
    rfl

theorem field?_sourcePort {n : UInt16} (h : t.payload.sourcePort? = some n) :
    t.packet.field? .sourcePort = some (Bytes.ofNatBE 2 n.toNat) := by
  unfold packet
  cases hp : t.payload <;> rw [hp] at h <;> cases h <;> rfl

theorem field?_destinationPort {n : UInt16} (h : t.payload.destinationPort? = some n) :
    t.packet.field? .destinationPort = some (Bytes.ofNatBE 2 n.toNat) := by
  unfold packet
  cases hp : t.payload <;> rw [hp] at h <;> cases h <;> rfl

theorem field?_flags {b : UInt8} (h : t.payload.flags? = some b) :
    t.packet.field? .flags = some [b] := by
  unfold packet
  cases hp : t.payload <;> rw [hp] at h <;> cases h
  rfl

theorem ports_of_hasPorts (h : t.protocol.hasPorts) :
    ∃ m n, t.payload.sourcePort? = some m ∧ t.payload.destinationPort? = some n := by
  unfold protocol at h
  cases hp : t.payload with
  | tcp m n flags => exact ⟨m, n, rfl, rfl⟩
  | udp m n => exact ⟨m, n, rfl, rfl⟩
  | ping =>
    rw [hp] at h
    cases hs : t.source.isV4 <;> rw [hs] at h <;> cases h

theorem flags_of_tcp (h : t.protocol = .tcp) : ∃ b, t.payload.flags? = some b := by
  unfold protocol at h
  cases hp : t.payload with
  | tcp m n flags => exact ⟨flags, rfl⟩
  | udp m n => rw [hp] at h; cases h
  | ping =>
    rw [hp] at h
    cases hs : t.source.isV4 <;> rw [hs] at h <;> cases h

end Traffic

namespace Counter

variable {family : Family} {c : Counter} {t : Traffic}

theorem hasPorts_iff : c.hasPorts ↔ ∃ q ∈ c.protocol, q.hasPorts := by
  unfold hasPorts
  cases c.protocol <;> simp

/-- A port that a well-formed counter names is compared with the packet's. -/
theorem port_eq_of_field? {port : Option UInt16} {f : Field} {m : UInt16}
    (hport : ∀ n ∈ port, c.hasPorts ∧ n ≠ 0)
    (hf : t.packet.field? f = some (Bytes.ofNatBE 2 m.toNat))
    (h : c.hasPorts → ∀ n ∈ askedPort port, t.packet.field? f = some (Bytes.ofNatBE 2 n.toNat)) :
    ∀ n ∈ port, m = n := by
  intro n hn
  obtain ⟨hp, h0⟩ := hport n hn
  have hask : n ∈ askedPort port := by
    rw [Option.mem_def.1 hn]
    simp [askedPort, h0]
  have he := h hp n hask
  rw [hf] at he
  exact Bytes.port_inj (Option.some.inj he)

theorem mem_of_mem_askedPort {port : Option UInt16} {n : UInt16} (h : n ∈ askedPort port) :
    n ∈ port := by
  unfold askedPort at h
  exact (Option.filter_eq_some_iff.1 h).1

/-- What a rule compares besides addresses is what its counter says of them. -/
theorem matches_packet_iff (hc : c.WellFormed family) : c.Matches t.packet ↔
    (∀ a ∈ c.source, a = t.source ∨ t.LooksFrom a) ∧
    (∀ a ∈ c.destination, a = t.destination ∨ t.LooksTo a) ∧ c.DescribesPayload t := by
  constructor
  · intro h
    have hprotocol : ∀ q ∈ c.protocol, q = t.protocol := fun q hq =>
      (t.field?_protocol_eq_iff q).1 (h.protocol q hq)
    refine ⟨fun a ha => (t.field?_source_eq_iff a).1 (h.source a ha),
      fun a ha => (t.field?_destination_eq_iff a).1 (h.destination a ha), hprotocol, ?_, ?_, ?_⟩
    · intro n hn
      obtain ⟨q, hq, hqp⟩ := hasPorts_iff.1 (hc.sourcePort n hn).1
      obtain ⟨m, -, hm, -⟩ := t.ports_of_hasPorts (hprotocol q hq ▸ hqp)
      rw [hm, port_eq_of_field? hc.sourcePort (t.field?_sourcePort hm) h.sourcePort n hn]
    · intro n hn
      obtain ⟨q, hq, hqp⟩ := hasPorts_iff.1 (hc.destinationPort n hn).1
      obtain ⟨-, m, -, hm⟩ := t.ports_of_hasPorts (hprotocol q hq ▸ hqp)
      rw [hm, port_eq_of_field? hc.destinationPort (t.field?_destinationPort hm) h.destinationPort
        n hn]
    · intro he
      have ht := hc.flags he
      obtain ⟨b, hb⟩ := t.flags_of_tcp (hprotocol .tcp (isTcp_iff.1 ht)).symm
      refine ⟨b, hb, ?_⟩
      have hm := h.flags ht he
      rw [t.field?_flags hb] at hm
      simpa [Packet.combine] using hm
  · rintro ⟨hs, hd, hp⟩
    refine ⟨fun a ha => (t.field?_source_eq_iff a).2 (hs a ha),
      fun a ha => (t.field?_destination_eq_iff a).2 (hd a ha),
      fun q hq => (t.field?_protocol_eq_iff q).2 (hp.protocol q hq), ?_, ?_, ?_⟩
    · intro _ n hn
      exact t.field?_sourcePort (hp.sourcePort n (mem_of_mem_askedPort hn))
    · intro _ n hn
      exact t.field?_destinationPort (hp.destinationPort n (mem_of_mem_askedPort hn))
    · intro _ he
      obtain ⟨b, hb, hm⟩ := hp.flags he
      rw [t.field?_flags hb]
      simp [Packet.combine, hm]

/-- A rule has the bytes it asks for if its counter describes the traffic or confuses it. -/
theorem matches_packet_iff_describes_or_confuses (hc : c.WellFormed family) :
    c.Matches t.packet ↔ c.Describes t ∨ c.Confuses t := by
  rw [matches_packet_iff hc]
  constructor
  · rintro ⟨hs, hd, hp⟩
    by_cases hx : (∃ a ∈ c.source, t.LooksFrom a) ∨ ∃ a ∈ c.destination, t.LooksTo a
    · exact .inr ⟨hp, hs, hd, hx⟩
    · rw [not_or] at hx
      refine .inl ⟨hp, fun a ha => ?_, fun a ha => ?_⟩
      · exact (hs a ha).resolve_right fun hl => hx.1 ⟨a, ha, hl⟩
      · exact (hd a ha).resolve_right fun hl => hx.2 ⟨a, ha, hl⟩
  · rintro (h | h)
    · exact ⟨fun a ha => .inl (h.source a ha), fun a ha => .inl (h.destination a ha),
        h.toDescribesPayload⟩
    · exact ⟨h.source, h.destination, h.toDescribesPayload⟩

/-- Traffic that is confused is of the newer version of IP, and the counter has an address of the
older one. -/
theorem Confuses.versions (h : c.Confuses t) :
    t.source.isV4 = false ∧ ∃ a, (a ∈ c.source ∨ a ∈ c.destination) ∧ a.isV4 := by
  rcases h.confused with ⟨a, ha, h4, h6, -⟩ | ⟨a, ha, h4, h6, -⟩
  · exact ⟨h6, a, .inl ha, h4⟩
  · exact ⟨h6, a, .inr ha, h4⟩

theorem not_describes_of_confuses (h : c.Confuses t) : ¬ c.Describes t := by
  intro hd
  have h6 := h.versions.1
  rcases h.confused with ⟨a, ha, h4, -⟩ | ⟨a, ha, h4, -⟩
  · rw [hd.source a ha, h6] at h4
    cases h4
  · rw [hd.destination a ha, ← t.sameVersion, h6] at h4
    cases h4

/-- Only tables that see both versions carry traffic that can be confused. -/
theorem family_of_confuses (hc : c.WellFormed family) (hf : family.carries t.packet)
    (h : c.Confuses t) : family = .inet := by
  obtain ⟨h6, a, ha, h4⟩ := h.versions
  cases family with
  | ip =>
    have hv : t.packet.isV4 = true := hf
    rw [t.isV4_packet, h6] at hv
    cases hv
  | ip6 =>
    have hv : (!a.isV4) = true := ha.elim (hc.source a) (hc.destination a)
    rw [h4] at hv
    cases hv
  | inet => rfl

/-- The traffic comes by a chain of the direction in a table of the family, and the counter
describes it. -/
def Declares (c : Counter) (family : Family) (d : Direction) (t : Traffic) : Prop :=
  t.direction = d ∧ family.carries t.packet ∧ c.Describes t

/-- The traffic comes by such a chain of a table that sees both versions, and the counter confuses
it. -/
def Mistakes (c : Counter) (family : Family) (d : Direction) (t : Traffic) : Prop :=
  t.direction = d ∧ family = .inet ∧ c.Confuses t

end Counter

/-! ## Delivering packets -/

/-- The rule in a place: of the table, of the chain in it and of the rule in that. -/
def Ruleset.ruleAt? (rs : Ruleset) (i j n : Nat) : Option Rule :=
  rs.tables[i]?.bind fun t => t.chains[j]?.bind fun c => c.rules[n]?

section Deliver
variable {rs : Ruleset} {i j n : Nat} {ts : TableState} {cs : ChainState}

theorem ruleAt?_deliver (p : Packet) {r : Rule} (hts : rs.tables[i]? = some ts)
    (hcs : ts.chains[j]? = some cs) (hr : cs.rules[n]? = some r) :
    (rs.deliver p).1.ruleAt? i j n =
      some (if ts.table.family.carries p ∧ cs.chain.hook.map Hook.direction = some p.direction then
        (p.evaluate r).1 else r) := by
  have hrule : (cs.deliver p).1.rules[n]? =
      some (if cs.chain.hook.map Hook.direction = some p.direction then (p.evaluate r).1
        else r) := by
    unfold ChainState.deliver
    split <;> simp [hr]
  have hchain : (ts.deliver p).1.chains[j]? =
      some (if ts.table.family.carries p then (cs.deliver p).1 else cs) := by
    unfold TableState.deliver
    split <;> simp [hcs]
  have htable : (rs.deliver p).1.tables[i]? = some (ts.deliver p).1 := by
    simp [Ruleset.deliver, hts]
  rw [Ruleset.ruleAt?, htable, Option.bind_some, hchain, Option.bind_some]
  by_cases hf : ts.table.family.carries p
  · rw [if_pos hf, hrule]
    simp [hf]
  · rw [if_neg hf, hr]
    simp [hf]

theorem installed_ne_of_counted (chain : Chain) (c : Counter) (handle : Option UInt64)
    (packets bytes bytes' : UInt64) : Rule.installed chain c handle (packets + 1) bytes' ≠
      Rule.installed chain c handle packets bytes := by
  intro h
  have he := congrArg Rule.exprs h
  simp at he

/-- The rule of a well-formed counter, in a chain of one direction, counts a packet exactly if its
counter describes the traffic or, in a table that sees both versions of IP, confuses it with what
it describes. Otherwise the rule is left as it was. -/
theorem deliver_counts_iff {d : Direction} {priority : Int32} {c : Counter} {handle : Option UInt64}
    {packets bytes : UInt64} (t : Traffic) (hts : rs.tables[i]? = some ts)
    (hcs : ts.chains[j]? = some cs) (hhook : cs.chain.hook = some ⟨d, priority⟩)
    (hr : cs.rules[n]? = some (Rule.installed cs.chain c handle packets bytes))
    (hc : c.fault ts.table.family = none) :
    ∃ r, (rs.deliver t.packet).1.ruleAt? i j n = some r ∧
      (r = Rule.installed cs.chain c handle packets bytes ∨
        r = Rule.installed cs.chain c handle (packets + 1) (bytes + t.packet.length)) ∧
      (r = Rule.installed cs.chain c handle (packets + 1) (bytes + t.packet.length) ↔
        c.Declares ts.table.family d t ∨ c.Mistakes ts.table.family d t) ∧
      ¬ (c.Declares ts.table.family d t ∧ c.Mistakes ts.table.family d t) := by
  have hwf := Counter.fault_eq_none_iff.1 hc
  have hdir : cs.chain.hook.map Hook.direction = some t.packet.direction ↔ t.direction = d := by
    rw [hhook, t.direction_packet]
    simp [eq_comm]
  have hcond : c.Declares ts.table.family d t ∨ c.Mistakes ts.table.family d t ↔
      (ts.table.family.carries t.packet ∧ t.direction = d) ∧ c.Matches t.packet := by
    rw [Counter.matches_packet_iff_describes_or_confuses hwf]
    constructor
    · rintro (⟨h1, h2, h3⟩ | ⟨h1, h2, h3⟩)
      · exact ⟨⟨h2, h1⟩, .inl h3⟩
      · exact ⟨⟨by rw [h2]; rfl, h1⟩, .inr h3⟩
    · rintro ⟨⟨h1, h2⟩, h3 | h3⟩
      · exact .inl ⟨h2, h1, h3⟩
      · exact .inr ⟨h2, Counter.family_of_confuses hwf h1 h3, h3⟩
  have hafter := ruleAt?_deliver t.packet hts hcs hr
  rw [Packet.evaluate_installed] at hafter
  have hne := installed_ne_of_counted cs.chain c handle packets bytes (bytes + t.packet.length)
  refine ⟨_, hafter, ?_, ?_, ?_⟩
  · split
    · split
      · exact .inr rfl
      · exact .inl rfl
    · exact .inl rfl
  · rw [hcond, ← hdir]
    split
    · next h1 =>
      by_cases h2 : c.Matches t.packet
      · simp [h1, h2]
      · simp [h2, hne.symm]
    · next h1 => exact ⟨fun h => absurd h.symm hne, fun h => absurd h.1 h1⟩
  · rintro ⟨⟨-, -, h⟩, -, -, h'⟩
    exact Counter.not_describes_of_confuses h' h

end Deliver

/-- Asks for an address of the older version. -/
def lan : Counter where
  label := "lan"
  source := some (.v4 ⟨[10, 0, 0, 1], rfl⟩)

/-- A chain of a table that sees both versions. -/
def lanChain : Chain := .base ⟨.inet, "flowmon"⟩ "input" .input (-300)

/-- The chain with the rule of `lan`. -/
def lanRules : ChainState := ⟨lanChain, [Rule.installed lanChain lan (some 1) 0 0]⟩

def dualStack : Ruleset where
  tables := [⟨⟨.inet, "flowmon"⟩, [lanRules]⟩]
  lastHandle := 1

/-- From 2001:db8:a00:1::1, where the octets of 10.0.0.1 stand in the place looked at. -/
def lookalike : Traffic where
  direction := .input
  source := .v6 ⟨[0x20, 1, 0xd, 0xb8, 10, 0, 0, 1, 0, 0, 0, 0, 0, 0, 0, 1], rfl⟩
  destination := .v6 ⟨[0x20, 1, 0xd, 0xb8, 0, 0, 0, 0, 0, 0, 0, 0, 0, 0, 0, 2], rfl⟩
  payload := .ping
  sameVersion := rfl

theorem deliver_counts_iff_lookalike :
    lan.fault .inet = none ∧
    ∃ r, (dualStack.deliver lookalike.packet).1.ruleAt? 0 0 0 = some r ∧
      (r = Rule.installed lanChain lan (some 1) 0 0 ∨
        r = Rule.installed lanChain lan (some 1) (0 + 1) (0 + lookalike.packet.length)) ∧
      (r = Rule.installed lanChain lan (some 1) (0 + 1) (0 + lookalike.packet.length) ↔
        lan.Declares .inet .input lookalike ∨ lan.Mistakes .inet .input lookalike) ∧
      ¬ (lan.Declares .inet .input lookalike ∧ lan.Mistakes .inet .input lookalike) := by
  have hc : lan.fault .inet = none := by decide
  have hts : dualStack.tables[0]? = some ⟨⟨.inet, "flowmon"⟩, [lanRules]⟩ := rfl
  have hcs : [lanRules][0]? = some lanRules := rfl
  have hhook : lanRules.chain.hook = some ⟨.input, -300⟩ := rfl
  have hr : lanRules.rules[0]? = some (Rule.installed lanRules.chain lan (some 1) 0 0) := rfl
  exact ⟨hc, deliver_counts_iff lookalike hts hcs hhook hr hc⟩

/-- A rule for an address of the older version counts a packet of the newer one. -/
theorem lookalike_counted :
    lan.fault .inet = none ∧ ¬ lan.Declares .inet .input lookalike ∧
      (dualStack.deliver lookalike.packet).1.ruleAt? 0 0 0 =
        some (Rule.installed lanChain lan (some 1) 1 48) := by
  refine ⟨by decide, ?_, by decide +kernel⟩
  rintro ⟨-, -, h⟩
  have ha := h.source (.v4 ⟨[10, 0, 0, 1], rfl⟩) rfl
  cases ha

end FlowTally
