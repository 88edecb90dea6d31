import FlowTally.Proofs.Acceptance
import FlowTally.Proofs.Installed
import FlowTally.Rule.ToCounter
/-!
# Reading rules back

A rule carries a part of its counter (`Counter.kept`): ports and flags that do not take part in the
match are left out of it, and it knows no direction. Every block of tests sets its own field,
whatever the registers hold and whatever was read before (`Sets`), so that reading the blocks one
after the other finds all of that part (`toCounter_installed`). Nothing that validation accepts is
left out (`kept_eq_self`).
-/

namespace FlowTally

/-! ## What a rule keeps of its counter -/

namespace Counter

/-- The part of a counter that its rule carries. -/
def kept (c : Counter) : Counter where
  label := c.label
  source := c.source
  destination := c.destination
  protocol := c.protocol
  sourcePort := if c.hasPorts then askedPort c.sourcePort else none
  destinationPort := if c.hasPorts then askedPort c.destinationPort else none
  flags := if c.isTcp then c.flags else .empty

theorem askedPort_askedPort (port : Option UInt16) :
    askedPort (askedPort port) = askedPort port := by
  simp [askedPort]

theorem askedPort_eq_self {port : Option UInt16} (h : ∀ n ∈ port, n ≠ 0) :
    askedPort port = port := by
  cases port with
  | none => rfl
  | some n => simpa [askedPort] using h n rfl

/-- A port that is kept is one that the counter asks for. -/
theorem keptPort_eq_self {c : Counter} {port : Option UInt16} (h : ∀ n ∈ port, c.hasPorts ∧ n ≠ 0) :
    (if c.hasPorts then askedPort port else none) = port := by
  cases port with
  | none => simp [askedPort]
  | some n => rw [if_pos (h n rfl).1, askedPort_eq_self fun m hm => (h m hm).2]

theorem keptFlags_eq_self {c : Counter} (h : c.flags.isEmpty = false → c.isTcp) :
    (if c.isTcp then c.flags else .empty) = c.flags := by
  cases he : c.flags.isEmpty with
  | false => rw [if_pos (h he)]
  | true => simp [TcpFlags.eq_empty_of_isEmpty he]

/-- Nothing is lost of a counter that fits together, but for what is only set on reading. -/
theorem kept_of_wellFormed {family : Family} {c : Counter} (h : c.WellFormed family) :
    c.kept = { c with direction := none, packets := 0, bytes := 0 } := by
  unfold kept
  rw [keptPort_eq_self h.sourcePort, keptPort_eq_self h.destinationPort, keptFlags_eq_self h.flags]

theorem kept_eq_self {family : Family} {c : Counter} (h : c.WellFormed family)
    (hd : c.direction = none) (hp : c.packets = 0) (hb : c.bytes = 0) : c.kept = c := by
  rw [kept_of_wellFormed h]
  cases c
  simp_all

end Counter

namespace Rule

theorem testPort_askedPort (f : Field) (port : Option UInt16) :
    testPort f (Counter.askedPort port) = testPort f port := by
  simp only [testPort, Counter.askedPort_askedPort]

theorem tests_kept (c : Counter) : tests c.kept = tests c := by
  have hp : c.kept.hasPorts = c.hasPorts := rfl
  have ht : c.kept.isTcp = c.isTcp := rfl
  unfold tests
  rw [hp, ht]
  congr 1
  · congr 1
    cases h : c.hasPorts with
    | true => simp [Counter.kept, h, testPort_askedPort]
    | false => rfl
  · cases h : c.isTcp with
    | true => simp [Counter.kept, h]
    | false => rfl

theorem ofCounter_kept (chain : Chain) (c : Counter) :
    ofCounter chain c.kept = ofCounter chain c := by
  unfold ofCounter
  rw [tests_kept]
  rfl

end Rule

/-! ## Setting one field -/

theorem Bytes.toNatBE_singleton (b : UInt8) : toNatBE [b] = b.toNat := by
  simp [toNatBE, toNatLE]

namespace Counter

variable (c : Counter)

theorem setField_source (a : Address) :
    c.setField (if a.isV4 then .sourceV4 else .sourceV6) a.octets =
      .ok { c with source := some a } := by
  have ho := Address.ofOctets?_octets a
  cases a with
  | v4 o => simp_all [setField, Address.octets, Address.isV4, Field.width, o.length_eq]
  | v6 o => simp_all [setField, Address.octets, Address.isV4, Field.width, o.length_eq]

theorem setField_destination (a : Address) :
    c.setField (if a.isV4 then .destinationV4 else .destinationV6) a.octets =
      .ok { c with destination := some a } := by
  have ho := Address.ofOctets?_octets a
  cases a with
  | v4 o => simp_all [setField, Address.octets, Address.isV4, Field.width, o.length_eq]
  | v6 o => simp_all [setField, Address.octets, Address.isV4, Field.width, o.length_eq]

theorem setField_protocol (p : Protocol) :
    c.setField .protocol [p.number] = .ok { c with protocol := some p } := by
  simp [setField, Field.width, Bytes.toNatBE_singleton]

theorem setField_sourcePort (n : UInt16) :
    c.setField .sourcePort (Bytes.ofNatBE 2 n.toNat) = .ok { c with sourcePort := some n } := by
  simp [setField, Field.width, Bytes.ofNat_toNatBE_port]

theorem setField_destinationPort (n : UInt16) :
    c.setField .destinationPort (Bytes.ofNatBE 2 n.toNat) =
      .ok { c with destinationPort := some n } := by
  simp [setField, Field.width, Bytes.ofNat_toNatBE_port]

theorem setField_flags (b : UInt8) : c.setField .flags [b] = .ok { c with flags := ⟨b⟩ } := by
  simp [setField, Field.width, Bytes.toNatBE_singleton]

end Counter

/-! ## Blocks of tests -/

namespace Rule

namespace Reading

variable (s : Reading)

@[simp]
theorem field?_loaded (r : Register) (f : Field) : (s.loaded r f).field? r = some f := by
  simp [field?, loaded]

theorem absorb_load (f : Field) : s.absorb f.load = .ok (s.loaded .scratch f) := by
  unfold Field.load
  cases hp : f.place with
  | none => cases f <;> first | rfl | simp [Field.place] at hp
  | some place =>
    have hf : Field.ofLoad? place.1 place.2 (UInt32.ofNat f.width) = some f :=
      Field.ofLoad?_eq_some_iff.2 ⟨hp, rfl⟩
    simp only [absorb, hf]

theorem absorb_compare {f : Field} {data : Bytes} {c : Counter}
    (h : s.counter.setField f data = .ok c) :
    (s.loaded .scratch f).absorb (.compare .scratch .equal data) =
      .ok { s.loaded .scratch f with counter := c } := by
  simp only [absorb, field?_loaded]
  show (s.counter.setField f data).map _ = _
  rw [h]
  rfl

theorem absorb_mask (f : Field) (r : Register) (length : UInt32) (mask xor : Bytes) :
    (s.loaded .scratch f).absorb (.bitwise .scratch r length mask xor) =
      .ok (s.loaded .scratch f) := by
  simp only [absorb, field?_loaded]

theorem foldlM_absorb_cons {s s' : Reading} {e : Expr} (h : s.absorb e = .ok s') (es : List Expr) :
    (e :: es).foldlM absorb s = es.foldlM absorb s' := by
  rw [List.foldlM_cons, h]
  rfl

end Reading

/-- Whatever was read before, the expressions change the counter by `g` and count nothing. -/
def Sets (es : List Expr) (g : Counter → Counter) : Prop :=
  ∀ s : Reading, ∃ rs, es.foldlM Reading.absorb s =
    .ok { s with counter := g s.counter, registers := rs }

namespace Sets

theorem nil : Sets [] id := fun s => ⟨s.registers, rfl⟩

theorem append {es es' : List Expr} {g g' : Counter → Counter} (h : Sets es g) (h' : Sets es' g') :
    Sets (es ++ es') (g' ∘ g) := by
  intro s
  obtain ⟨rs, hs⟩ := h s
  obtain ⟨rs', hs'⟩ := h' { s with counter := g s.counter, registers := rs }
  refine ⟨rs', ?_⟩
  rw [List.foldlM_append, hs]
  exact hs'

theorem test {f : Field} {data : Bytes} {g : Counter → Counter}
    (h : ∀ c : Counter, c.setField f data = .ok (g c)) : Sets (test f data) g := by
  intro s
  refine ⟨(s.loaded .scratch f).registers, ?_⟩
  rw [Rule.test, Reading.foldlM_absorb_cons (s.absorb_load f),
    Reading.foldlM_absorb_cons (s.absorb_compare (h s.counter))]
  rfl

/-- A test that is left out leaves its field as it was. -/
theorem address {v4 v6 : Field} (set : Option Address → Counter → Counter) (hn : set none = id)
    (h : ∀ (a : Address) (c : Counter),
      c.setField (if a.isV4 then v4 else v6) a.octets = .ok (set (some a) c))
    (address : Option Address) : Sets (testAddress v4 v6 address) (set address) := by
  cases address with
  | none => exact hn ▸ nil
  | some a =>
    cases a with
    | v4 o => exact test fun c => h (.v4 o) c
    | v6 o => exact test fun c => h (.v6 o) c

theorem protocol (protocol : Option Protocol) :
    Sets (testProtocol protocol) fun c => { c with protocol := protocol.or c.protocol } := by
  cases protocol with
  | none => exact nil
  | some p => exact test fun c => c.setField_protocol p

theorem port {f : Field} (set : Option UInt16 → Counter → Counter) (hn : set none = id)
    (h : ∀ (n : UInt16) (c : Counter),
      c.setField f (Bytes.ofNatBE 2 n.toNat) = .ok (set (some n) c))
    (port : Option UInt16) : Sets (testPort f port) (set (Counter.askedPort port)) := by
  unfold testPort
  cases Counter.askedPort port with
  | none => exact hn ▸ nil
  | some n => exact test fun c => h n c

theorem flags (flags : TcpFlags) :
    Sets (testFlags flags) fun c => if flags.isEmpty then c else { c with flags } := by
  unfold testFlags
  cases flags.isEmpty with
  | true => exact nil
  | false =>
    intro s
    refine ⟨(s.loaded .scratch .flags).registers, ?_⟩
    simp only [Bool.false_eq_true, if_false]
    rw [Reading.foldlM_absorb_cons (s.absorb_load .flags),
      Reading.foldlM_absorb_cons (s.absorb_mask _ _ _ _ _),
      Reading.foldlM_absorb_cons (s.absorb_compare (s.counter.setField_flags flags.bits))]
    rfl

theorem ite {es : List Expr} {g : Counter → Counter} (b : Bool) (h : Sets es g) :
    Sets (if b then es else []) fun c => if b then g c else c := by
  cases b with
  | true => exact h
  | false => exact nil

end Sets

/-- Reading all tests of a counter finds the part of it that its rule carries. -/
theorem sets_tests (c : Counter) :
    ∃ g, Sets (tests c) g ∧ g {} = { c.kept with label := "" } := by
  have source := Sets.address (fun a k => { k with source := a.or k.source }) rfl
    (fun a k => k.setField_source a) c.source
  have destination := Sets.address (fun a k => { k with destination := a.or k.destination }) rfl
    (fun a k => k.setField_destination a) c.destination
  have sourcePort := Sets.port (fun n k => { k with sourcePort := n.or k.sourcePort }) rfl
    (fun n k => k.setField_sourcePort n) c.sourcePort
  have destinationPort := Sets.port
    (fun n k => { k with destinationPort := n.or k.destinationPort }) rfl
    (fun n k => k.setField_destinationPort n) c.destinationPort
  refine ⟨_, (((source.append destination).append (Sets.protocol c.protocol)).append
    ((sourcePort.append destinationPort).ite c.hasPorts)).append
    ((Sets.flags c.flags).ite c.isTcp), ?_⟩
  cases hp : c.hasPorts <;> cases ht : c.isTcp <;> cases he : c.flags.isEmpty <;>
    simp [Counter.kept, hp, ht, he, TcpFlags.eq_empty_of_isEmpty]

/-! ## Whole rules -/

/-- An installed rule reads back as what it keeps of its counter, with its totals. -/
theorem toCounter_installed (chain : Chain) (c : Counter) (handle : Option UInt64)
    (packets bytes : UInt64) : (installed chain c handle packets bytes).toCounter =
      if c.label.isEmpty then .error .noLabel else .ok { c.kept with packets, bytes } := by
  obtain ⟨g, hg, hc⟩ := sets_tests c
  obtain ⟨rs, hs⟩ := hg {}
  have hread : (installed chain c handle packets bytes).exprs.foldlM Reading.absorb {} =
      .ok ⟨{ g {} with packets, bytes }, rs, true⟩ := by
    rw [exprs_installed, List.foldlM_append, hs]
    rfl
  unfold toCounter
  rw [hread, hc, comment_installed]
  cases he : c.label.isEmpty with
  | true =>
    simp only [bind, Except.bind, Bool.not_true, Bool.false_eq_true, if_false, he, if_true]
    rfl
  | false =>
    simp only [bind, Except.bind, Bool.not_true, Bool.false_eq_true, if_false, he]
    rfl

/-- Reading the rule of a counter gives the part of the counter that the rule carries, or finds no
label if there is none. The rule depends on that part only, and the part is all there is to a
counter of an accepted configuration that was not itself read back. -/
theorem toCounter_ofCounter (chain : Chain) (c : Counter) :
    (ofCounter chain c).toCounter = (if c.label.isEmpty then .error .noLabel else .ok c.kept) ∧
    ofCounter chain c.kept = ofCounter chain c ∧
    ∀ (config : Config) (d : Direction), config.validate.value = .ok () →
      c ∈ config.counters.get d → c.direction = none → c.packets = 0 → c.bytes = 0 →
        c.kept = c := by
  refine ⟨toCounter_installed chain c none 0 0, ofCounter_kept chain c, ?_⟩
  intro config d hv hc
  exact Counter.kept_eq_self ((Config.accepted_of_validate hv).wellFormed d c hc)

/-- A segment of a handshake, of which every part takes part in the match. -/
def handshake : Counter where
  label := "handshake"
  source := some (.v4 ⟨[192, 0, 2, 1], rfl⟩)
  destination := some (.v6 ⟨[0x20, 1, 0xd, 0xb8, 0, 0, 0, 0, 0, 0, 0, 0, 0, 0, 0, 1], rfl⟩)
  protocol := some .tcp
  sourcePort := some 8080
  destinationPort := some 443
  flags := ⟨0x13⟩

def handshakes : Config where
  layout := { family := .inet }
  counters := { input := [handshake] }

theorem toCounter_ofCounter_handshake :
    handshakes.validate.value = .ok () ∧ handshake ∈ handshakes.counters.get .input ∧
      handshake.kept = handshake := by
  have hv : handshakes.validate.value = .ok () := by decide +kernel
  have hm : handshake ∈ handshakes.counters.get .input := List.mem_singleton.2 rfl
  exact ⟨hv, hm, (toCounter_ofCounter (handshakes.layout.chain .input) handshake).2.2 handshakes
    .input hv hm rfl rfl rfl⟩

end Rule

end FlowTally
