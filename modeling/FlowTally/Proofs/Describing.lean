import FlowTally.Proofs.Alike
import FlowTally.Proofs.Attributes
import FlowTally.Proofs.ReadBack
/-!
# What a rule is read as

A counter that is read from a rule asks for nothing that the rule does not compare
(`asked_subset_comparisons`), but the reader goes by the comparisons alone: it takes every mask for
the one that flags are compared under, the last comparison of a field for the only one, and does not
ask where the counter is. So the rule may count other packets than the rule that the counter would
be installed as. `Rule.described` says when each of the two counts all that the other counts, in
terms of what the rule demands and what its comparisons are read as, and that they count the same
packets exactly if their demands are alike.
-/

namespace FlowTally

/-! ## Comparisons -/

namespace Field

/-- In the order in which a counter's rule compares them. -/
def tested : List Field :=
  [sourceV4, sourceV6, destinationV4, destinationV6, protocol, sourcePort, destinationPort, flags]

/-- What a register holds that the field was loaded into. -/
def cells (f : Field) : List Cell :=
  match f.place with
  | none => [{ place := .protocol }]
  | some (base, offset) => Cell.ofHeader base offset.toNat f.width

/-- What a counter's rule compares with the data: of the flags, only those that it looks at. -/
def compared : Field → List Cell
  | flags => Cell.combine flags.cells [TcpFlags.matchable.bits] [0]
  | f => f.cells

/-- What is demanded of a packet that is to have the data in the field. -/
def demands (f : Field) (data : Bytes) : List Demand :=
  match f.place with
  | none => Cell.demands f.compared data
  | some (base, offset) => .reach base (offset.toNat + f.width) :: Cell.demands f.compared data

/-- The expressions by which a counter's rule compares the field. -/
def check : Field → Bytes → List Expr
  | flags, data => [flags.load, .bitwise .scratch .scratch 1 [TcpFlags.matchable.bits] [0],
      .compare .scratch .equal data]
  | f, data => Rule.test f data

/-- The check of a field that is not asked for is left out. -/
def checks (f : Field) : Option Bytes → List Expr
  | none => []
  | some data => f.check data

/-- A check demands what the field does, whatever the registers held. -/
theorem demandsFrom_check (f : Field) (data : Bytes) (ss : Sights) (es : List Expr) :
    ∃ ss', demandsFrom ss (f.check data ++ es) = f.demands data ++ demandsFrom ss' es := by
  cases f <;> exact ⟨_, rfl⟩

end Field

/-- What is demanded of a packet by comparisons of fields. -/
def demandsOf (xs : List (Field × Bytes)) : List Demand := xs.flatMap fun x => x.1.demands x.2

theorem demandsOf_subset {xs ys : List (Field × Bytes)} (h : xs ⊆ ys) :
    demandsOf xs ⊆ demandsOf ys := by
  intro d hd
  obtain ⟨x, hx, hd⟩ := List.mem_flatMap.1 hd
  exact List.mem_flatMap.2 ⟨x, h hx, hd⟩

theorem demandsFrom_checks (xs : List (Field × Bytes)) (es : List Expr) : ∀ ss : Sights, ∃ ss',
    demandsFrom ss (xs.flatMap (fun x => x.1.check x.2) ++ es) =
      demandsOf xs ++ demandsFrom ss' es := by
  induction xs with
  | nil => exact fun ss => ⟨ss, rfl⟩
  | cons x xs ih =>
    intro ss
    obtain ⟨ss₁, h₁⟩ := x.1.demandsFrom_check x.2 ss (xs.flatMap (fun x => x.1.check x.2) ++ es)
    obtain ⟨ss₂, h₂⟩ := ih ss₁
    refine ⟨ss₂, ?_⟩
    rw [List.flatMap_cons, List.append_assoc, h₁, h₂, demandsOf, demandsOf, List.flatMap_cons,
      List.append_assoc]

/-! ## What a counter asks for -/

namespace Counter

/-- The bytes that the counter has for a field, whether or not they take part in the match. -/
def value? (c : Counter) : Field → Option Bytes
  | .protocol => c.protocol.map fun q => [q.number]
  | .sourceV4 => (c.source.filter Address.isV4).map Address.octets
  | .sourceV6 => (c.source.filter (!·.isV4)).map Address.octets
  | .destinationV4 => (c.destination.filter Address.isV4).map Address.octets
  | .destinationV6 => (c.destination.filter (!·.isV4)).map Address.octets
  | .sourcePort => c.sourcePort.map fun n => Bytes.ofNatBE 2 n.toNat
  | .destinationPort => c.destinationPort.map fun n => Bytes.ofNatBE 2 n.toNat
  | .flags => if c.flags.isEmpty then none else some [c.flags.bits]

/-- The comparisons that the counter's rule makes, in order. -/
def asked (c : Counter) : List (Field × Bytes) :=
  Field.tested.filterMap fun f => (c.kept.value? f).map (f, ·)

theorem mem_asked_iff {c : Counter} {f : Field} {data : Bytes} :
    (f, data) ∈ c.asked ↔ c.kept.value? f = some data := by
  have hf : f ∈ Field.tested := by cases f <;> decide
  simp [asked, hf]

/-- Nothing is added to what a counter has. -/
theorem value?_of_kept {c : Counter} {f : Field} {data : Bytes} (h : c.kept.value? f = some data) :
    c.value? f = some data := by
  have hport (port : Option UInt16) (b : Bool) :
      (if b then askedPort port else none).map (fun n => Bytes.ofNatBE 2 n.toNat) = some data →
        port.map (fun n => Bytes.ofNatBE 2 n.toNat) = some data := by
    cases b with
    | false => simp
    | true =>
      simp only [if_true, Option.map_eq_some_iff, askedPort, Option.filter_eq_some_iff]
      rintro ⟨n, ⟨hn, -⟩, hd⟩
      exact ⟨n, hn, hd⟩
  cases f with
  | sourcePort => exact hport _ _ h
  | destinationPort => exact hport _ _ h
  | flags =>
    simp only [value?, kept] at h ⊢
    cases ht : c.isTcp with
    | true => simpa [ht] using h
    | false => simp [ht, TcpFlags.isEmpty, TcpFlags.empty] at h
  | _ => exact h

end Counter

namespace Rule

section Checks
variable {f v4 v6 : Field}

theorem testAddress_eq (h4 : v4.check = test v4) (h6 : v6.check = test v6)
    (address : Option Address) : testAddress v4 v6 address =
      v4.checks ((address.filter Address.isV4).map Address.octets) ++
        v6.checks ((address.filter (!·.isV4)).map Address.octets) := by
  rcases address with _ | o | o
  · rfl
  · show test v4 o.bytes = v4.check o.bytes ++ []
    rw [h4, List.append_nil]
  · show test v6 o.bytes = [] ++ v6.check o.bytes
    rw [h6, List.nil_append]

theorem testProtocol_eq (protocol : Option Protocol) :
    testProtocol protocol = Field.protocol.checks (protocol.map fun q => [q.number]) := by
  cases protocol <;> rfl

theorem testPort_eq (hf : f.check = test f) (b : Bool) (port : Option UInt16) :
    (if b then testPort f port else []) = f.checks
      ((if b then Counter.askedPort port else none).map fun n => Bytes.ofNatBE 2 n.toNat) := by
  cases b with
  | false => rfl
  | true => cases ha : Counter.askedPort port <;> simp [testPort, ha, Field.checks, hf]

theorem testFlags_eq (c : Counter) : (if c.isTcp then testFlags c.flags else []) =
    Field.flags.checks (c.kept.value? .flags) := by
  cases ht : c.isTcp with
  | false => simp [Counter.value?, Counter.kept, ht]; rfl
  | true =>
    cases he : c.flags.isEmpty <;> simp [testFlags, Counter.value?, Counter.kept, ht, he] <;> rfl

end Checks

theorem flatMap_asked (c : Counter) : (c.asked.flatMap fun x => x.1.check x.2) =
    Field.tested.flatMap fun f => f.checks (c.kept.value? f) := by
  unfold Counter.asked
  induction Field.tested with
  | nil => rfl
  | cons f fs ih => cases hv : c.kept.value? f <;> simp [hv, ih, Field.checks]

/-- The tests of a counter are the checks of what it asks for. -/
theorem tests_eq_checks (c : Counter) : tests c = c.asked.flatMap fun x => x.1.check x.2 := by
  have hports : (if c.hasPorts then
      testPort .sourcePort c.sourcePort ++ testPort .destinationPort c.destinationPort else []) =
      Field.sourcePort.checks (c.kept.value? .sourcePort) ++
        Field.destinationPort.checks (c.kept.value? .destinationPort) := by
    refine Eq.trans ?_ (congrArg₂ (· ++ ·) (testPort_eq rfl c.hasPorts c.sourcePort)
      (testPort_eq rfl c.hasPorts c.destinationPort))
    split <;> rfl
  rw [flatMap_asked, tests, testAddress_eq rfl rfl, testAddress_eq rfl rfl, testProtocol_eq, hports,
    testFlags_eq]
  simp only [Field.tested, List.flatMap_cons, List.flatMap_nil, List.append_nil, List.append_assoc]
  rfl

/-- A counter's rule demands what the counter asks for. -/
theorem demands_ofCounter (chain : Chain) (c : Counter) :
    (ofCounter chain c).demands = demandsOf c.asked := by
  obtain ⟨ss, h⟩ := demandsFrom_checks c.asked [.counter 0 0] []
  rw [demands, ofCounter, tests_eq_checks, h, demandsFrom, List.append_nil]

/-! ## Reading -/

/-- The comparisons as they are read: of the field that the register was last loaded with, whatever
was done to it since, and wherever the counter is. -/
def comparisonsFrom : List (Register × Field) → List Expr → List (Field × Bytes)
  | _, [] => []
  | rs, .metadata _ target :: es => comparisonsFrom ((target, .protocol) :: rs) es
  | rs, .payload base offset length target :: es =>
    match Field.ofLoad? base offset length with
    | some f => comparisonsFrom ((target, f) :: rs) es
    | none => comparisonsFrom rs es
  | rs, .compare source _ data :: es =>
    match rs.lookup source with
    | some f => (f, data) :: comparisonsFrom rs es
    | none => comparisonsFrom rs es
  | rs, .bitwise _ _ _ _ _ :: es | rs, .counter _ _ :: es | rs, .other _ :: es =>
    comparisonsFrom rs es

def comparisons (r : Rule) : List (Field × Bytes) := comparisonsFrom [] r.exprs

end Rule

theorem Address.ofOctets?_four {bs : Bytes} (h : bs.length = 4) :
    ofOctets? bs = some (.v4 ⟨bs, h⟩) := dif_pos h

theorem Address.ofOctets?_sixteen {bs : Bytes} (h : bs.length = 16) :
    ofOctets? bs = some (.v6 ⟨bs, h⟩) := by
  simp [ofOctets?, h]

/-- Setting a field gives the counter no other bytes than those. -/
theorem Counter.value?_of_setField {c c' : Counter} {f : Field} {data : Bytes}
    (h : c.setField f data = .ok c') {g : Field} {bs : Bytes} (hv : c'.value? g = some bs) :
    (g, bs) = (f, data) ∨ c.value? g = some bs := by
  unfold setField at h
  split at h
  · cases h
  next hl =>
  have hl : data.length = f.width := not_not.1 hl
  -- Every other field is as it was, but for an address of the other version, which is gone.
  cases f with
  | protocol =>
    obtain ⟨b, rfl⟩ := List.length_eq_one_iff.1 hl
    simp only at h
    split at h
    · next q hq =>
      cases h
      rw [Bytes.toNatBE_singleton, UInt8.ofNat_toNat, Protocol.ofNumber?_eq_some_iff] at hq
      cases g <;> first | exact .inr hv | simp_all [value?]
    · cases h
  | sourceV4 | destinationV4 =>
    cases h
    have ho := Address.ofOctets?_four hl
    cases g <;> first | exact .inr hv | simp_all [value?, Address.isV4, Address.octets]
  | sourceV6 | destinationV6 =>
    cases h
    have ho := Address.ofOctets?_sixteen hl
    cases g <;> first | exact .inr hv | simp_all [value?, Address.isV4, Address.octets]
  | sourcePort | destinationPort =>
    cases h
    have hp := Bytes.ofNatBE_toNatBE_port hl
    cases g <;> first | exact .inr hv | simp_all [value?]
  | flags =>
    cases h
    obtain ⟨b, rfl⟩ := List.length_eq_one_iff.1 hl
    cases g <;> first | exact .inr hv | simp_all [value?, Bytes.toNatBE_singleton]

namespace Rule

/-- The ways in which an expression can be taken in. -/
inductive Absorbs (s : Reading) : Expr → Reading → Prop where
  | protocol (target : Register) :
    Absorbs s (.metadata .protocol target) (s.loaded target .protocol)
  | payload {base : HeaderBase} {offset length : UInt32} (target : Register) {f : Field}
    (hf : Field.ofLoad? base offset length = some f) :
    Absorbs s (.payload base offset length target) (s.loaded target f)
  | mask (source target : Register) (length : UInt32) (mask xor : Bytes) :
    Absorbs s (.bitwise source target length mask xor) s
  | compare {source : Register} {data : Bytes} {f : Field} {c : Counter}
    (hf : s.registers.lookup source = some f) (hc : s.counter.setField f data = .ok c) :
    Absorbs s (.compare source .equal data) { s with counter := c }
  | count (packets bytes : UInt64) (h : s.counted = false) :
    Absorbs s (.counter packets bytes)
      { s with counter := { s.counter with packets, bytes }, counted := true }

theorem Absorbs.of_absorb {s s' : Reading} {e : Expr} (h : s.absorb e = .ok s') :
    Absorbs s e s' := by
  unfold Reading.absorb at h
  split at h
  · cases h
    exact .protocol _
  · cases h
  · split at h
    · next hf =>
      cases h
      exact .payload _ hf
    · cases h
  · split at h
    · cases h
      exact .mask _ _ _ _ _
    · cases h
  · cases h
  · split at h
    · next f hf =>
      cases hc : s.counter.setField f _ with
      | error e =>
        rw [hc] at h
        cases h
      | ok c =>
        rw [hc] at h
        cases h
        exact .compare hf hc
    · cases h
  · split at h
    · cases h
    · next hn =>
      cases h
      exact .count _ _ (Bool.eq_false_iff.2 hn)
  · cases h

theorem absorbs_of_cons {s s' : Reading} {e : Expr} {es : List Expr}
    (h : (e :: es).foldlM Reading.absorb s = .ok s') :
    ∃ s₁, Absorbs s e s₁ ∧ es.foldlM Reading.absorb s₁ = .ok s' := by
  rw [List.foldlM_cons, Wire.bind_eq_ok_iff] at h
  obtain ⟨s₁, ha, h⟩ := h
  exact ⟨s₁, .of_absorb ha, h⟩

/-- What a counter has when the reader is through was compared on the way, or was there before. -/
theorem value?_of_foldlM_absorb {f : Field} {data : Bytes} {es : List Expr} :
    ∀ {s s' : Reading}, es.foldlM Reading.absorb s = .ok s' → s'.counter.value? f = some data →
      (f, data) ∈ comparisonsFrom s.registers es ∨ s.counter.value? f = some data := by
  induction es with
  | nil =>
    intro s s' h hv
    cases h
    exact .inr hv
  | cons e es ih =>
    intro s s' h hv
    obtain ⟨s₁, ha, h⟩ := absorbs_of_cons h
    have hm := ih h hv
    cases ha with
    | protocol target => exact hm
    | payload target hf =>
      rw [comparisonsFrom, hf]
      exact hm
    | mask => exact hm
    | compare hf hc =>
      rw [comparisonsFrom, hf]
      rcases hm with hm | hm
      · exact .inl (List.mem_cons_of_mem _ hm)
      · refine (Counter.value?_of_setField hc hm).imp_left fun he => ?_
        rw [he]
        exact List.mem_cons_self
    | count packets bytes hn => cases f <;> exact hm

/-- The reader comes by one counter at most. -/
theorem countP_of_foldlM_absorb {es : List Expr} :
    ∀ {s s' : Reading}, es.foldlM Reading.absorb s = .ok s' →
      s.counted.toNat + es.countP Expr.isCounter = s'.counted.toNat := by
  induction es with
  | nil =>
    intro s s' h
    cases h
    rfl
  | cons e es ih =>
    intro s s' h
    obtain ⟨s₁, ha, h⟩ := absorbs_of_cons h
    rw [← ih h, List.countP_cons]
    cases ha with
    | count packets bytes hn => simp [hn, Expr.isCounter, Nat.add_comm]
    | _ => rfl

/-- What is known of a rule that was read as a counter. -/
theorem reading_of_toCounter {r : Rule} {c : Counter} (h : r.toCounter = .ok c) :
    ∃ s : Reading, r.exprs.foldlM Reading.absorb {} = .ok s ∧ s.counted = true ∧
      ∃ label, c = { s.counter with label } := by
  unfold toCounter at h
  obtain ⟨s, hs, h⟩ := Wire.bind_eq_ok_iff.1 h
  refine ⟨s, hs, ?_⟩
  cases hc : s.counted with
  | false => simp [hc, throw, throwThe, MonadExceptOf.throw, bind, Except.bind] at h
  | true =>
    simp only [hc, Bool.not_true, Bool.false_eq_true, if_false] at h
    cases hl : r.comment with
    | none =>
      rw [hl] at h
      cases h
    | some label =>
      rw [hl] at h
      simp only at h
      split at h
      · cases h
      · cases h
        exact ⟨rfl, label, rfl⟩

theorem counterCount_of_toCounter {r : Rule} {c : Counter} (h : r.toCounter = .ok c) :
    r.counterCount = 1 := by
  obtain ⟨s, hs, hc, -⟩ := reading_of_toCounter h
  have hone := countP_of_foldlM_absorb hs
  rw [hc] at hone
  exact (Nat.zero_add _).symm.trans hone

/-- The reader invents nothing. -/
theorem asked_subset_comparisons {r : Rule} {c : Counter} (h : r.toCounter = .ok c) :
    c.asked ⊆ r.comparisons := by
  rintro ⟨f, data⟩ hx
  obtain ⟨s, hs, -, label, rfl⟩ := reading_of_toCounter h
  have hv : s.counter.value? f = some data := by
    have hv := Counter.value?_of_kept (Counter.mem_asked_iff.1 hx)
    cases f <;> exact hv
  refine (value?_of_foldlM_absorb hs hv).resolve_right ?_
  cases f <;> exact nofun

/-! ## What the counter's rule would count -/

/-- A rule is read as a counter that asks for nothing the rule does not compare. If the rule demands
all that its comparisons are read as, then it counts only what the counter's rule would count; if
they are all it demands, and the counter asks for all of them, then it counts all of that. Whatever
it demands, the two count the same packets exactly if neither counts any, or both do and the demands
are alike. -/
theorem described {r : Rule} {c : Counter} (h : r.toCounter = .ok c) (chain : Chain) :
    c.asked ⊆ r.comparisons ∧
    (demandsOf r.comparisons ⊆ r.demands →
      ∀ p : Packet, p.Raises r → p.Raises (ofCounter chain c)) ∧
    (r.demands ⊆ demandsOf r.comparisons → r.comparisons ⊆ c.asked →
      ∀ p : Packet, p.Raises (ofCounter chain c) → p.Raises r) ∧
    ((∀ p : Packet, p.Raises r ↔ p.Raises (ofCounter chain c)) ↔
      ((∃ p : Packet, p.Raises r) ↔ ∃ p : Packet, p.Raises (ofCounter chain c)) ∧
        ((∃ p : Packet, p.Raises r) → Alike r.demands (demandsOf c.asked))) := by
  have hasked := asked_subset_comparisons h
  have hone := counterCount_of_toCounter h
  have hone' : (ofCounter chain c).counterCount = 1 := counterCount_installed chain c none 0 0
  have hsame := Packet.raises_same_iff hone hone'
  have hraises (p : Packet) : p.Raises (ofCounter chain c) ↔ p.MeetsAll (demandsOf c.asked) := by
    rw [Packet.raises_iff hone', demands_ofCounter]
    rfl
  rw [demands_ofCounter] at hsame
  refine ⟨hasked, fun hall p hp => ?_, fun honly hcovered p hp => ?_, hsame⟩
  · refine (hraises p).2 fun d hd => (Packet.raises_iff hone).1 hp d (hall ?_)
    exact demandsOf_subset hasked hd
  · refine (Packet.raises_iff hone).2 fun d hd => (hraises p).1 hp d ?_
    exact demandsOf_subset hcovered (honly hd)

/-- Compares two fields in an order and through registers of its own. -/
def reordered : Rule where
  table := ⟨.ip, "flowmon"⟩
  chain := "input"
  exprs := [.payload .transport 2 2 ⟨9⟩, .metadata .protocol ⟨2⟩, .compare ⟨2⟩ .equal [6],
    .compare ⟨9⟩ .equal [1, 187], .counter 5 700]
  comment := some "https"

def https : Counter where
  label := "https"
  protocol := some .tcp
  destinationPort := some 443
  packets := 5
  bytes := 700

theorem described_reordered : reordered.toCounter = .ok https ∧
    ∀ p : Packet, p.Raises reordered ↔
      p.Raises (ofCounter (.base ⟨.ip, "flowmon"⟩ "input" .input (-300)) https) := by
  have h : reordered.toCounter = .ok https := by decide +kernel
  have hd := described h (.base ⟨.ip, "flowmon"⟩ "input" .input (-300))
  exact ⟨h, fun p => ⟨hd.2.1 (by decide +kernel) p,
    hd.2.2.1 (by decide +kernel) (by decide +kernel) p⟩⟩

/-- A rule with these expressions is read as the counter, and only one of it and the counter's rule
counts the packet. -/
def Misread (es : List Expr) (c : Counter) (p : Packet) : Prop :=
  let r : Rule := { reordered with exprs := es, comment := some c.label }
  r.toCounter = .ok c ∧
    ¬ (p.Raises r ↔ p.Raises (ofCounter (.base ⟨.ip, "flowmon"⟩ "input" .input (-300)) c))

instance (es : List Expr) (c : Counter) (p : Packet) : Decidable (Misread es c p) :=
  inferInstanceAs (Decidable (_ ∧ _))

def host : Address := .v4 ⟨[198, 51, 100, 7], rfl⟩

theorem misread_rules :
    -- a mask on something other than flags
    Misread [Field.protocol.load, .compare .scratch .equal [6], Field.destinationPort.load,
        .bitwise .scratch .scratch 2 [0xff, 0] [0, 0], .compare .scratch .equal [31, 0],
        .counter 0 0]
      { label := "web", protocol := some .tcp, destinationPort := some 7936 }
      (.tcp .input host host 40000 8080 0) ∧
    -- a comparison behind the counter
    Misread [.counter 0 0, Field.protocol.load, .compare .scratch .equal [6]]
      { label := "web", protocol := some .tcp } (.udp .input host host 40000 53) ∧
    -- a field that is compared twice
    Misread [Field.protocol.load, .compare .scratch .equal [6], .compare .scratch .equal [17],
        .counter 0 0]
      { label := "web", protocol := some .udp } (.udp .input host host 40000 53) ∧
    -- a field that is loaded and not compared
    Misread [Field.flags.load, .counter 0 0] { label := "web" } (.ping .input host host) ∧
    -- a port without a protocol that has ports
    Misread [Field.destinationPort.load, .compare .scratch .equal [1, 187], .counter 0 0]
      { label := "web", destinationPort := some 443 } (.udp .input host host 40000 53) := by
  decide +kernel

end Rule

end FlowTally
