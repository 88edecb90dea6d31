import FlowTally.Config.Listen
import FlowTally.Proofs.Acceptance
import FlowTally.Proofs.Reconciling
import FlowTally.Proofs.Requests
import FlowTally.Proofs.Rereading
/-!
# What an accepted configuration asks of the kernel

The rules of counters are short and made of expressions that can be written, so the requests of a
layout depend on its names alone: they all have encodings that are read as they were meant if the
names can be written and have room, and not otherwise (`Layout.expressible_iff`). Labels are checked
for that before a configuration is accepted; of the names of the table and the chains only that they
are not empty.
-/

namespace FlowTally

/-! ## Rules of counters -/

namespace Rule

open Wire

/-- An expression as rules of counters have them. -/
structure Plain (e : Expr) : Prop where
  writable : e.Writable
  canonical : e.Canonical
  length_le : exprLength e ≤ 64

theorem plain_load (f : Field) : Plain f.load := by
  cases f <;> exact ⟨trivial, rfl, by decide⟩

theorem plain_test {f : Field} {data : Bytes} (h : data.length ≤ 16) :
    ∀ e ∈ test f data, Plain e := by
  have hp := padded_spec data.length
  simp only [test, List.forall_mem_cons, List.not_mem_nil, false_imp_iff, implies_true, and_true]
  exact ⟨plain_load f, trivial, rfl, by simp only [exprLength]; omega⟩

theorem plain_testAddress {v4 v6 : Field} {address : Option Address} :
    ∀ e ∈ testAddress v4 v6 address, Plain e := by
  match address with
  | none => simp [testAddress]
  | some (.v4 o) => exact plain_test (by rw [o.length_eq]; decide)
  | some (.v6 o) => exact plain_test (by rw [o.length_eq])

theorem plain_testPort {f : Field} {port : Option UInt16} : ∀ e ∈ testPort f port, Plain e := by
  unfold testPort
  split
  · simp
  · exact plain_test (by simp)

theorem plain_testFlags {s : TcpFlags} : ∀ e ∈ testFlags s, Plain e := by
  unfold testFlags
  split
  · simp
  · simp only [List.forall_mem_cons, List.not_mem_nil, false_imp_iff, implies_true, and_true]
    have hbyte : 36 + padded 1 ≤ 64 := by decide
    exact ⟨plain_load _, ⟨trivial, trivial, by decide⟩, ⟨trivial, rfl, hbyte⟩⟩

theorem plain_tests (c : Counter) : ∀ e ∈ tests c, Plain e := by
  have hprotocol : ∀ e ∈ testProtocol c.protocol, Plain e := by
    cases c.protocol with
    | none => simp [testProtocol]
    | some p => exact plain_test (by simp)
  simp only [tests, List.forall_mem_append]
  refine ⟨⟨⟨⟨plain_testAddress, plain_testAddress⟩, hprotocol⟩, ?_⟩, ?_⟩
  · split
    · exact List.forall_mem_append.2 ⟨plain_testPort, plain_testPort⟩
    · simp
  · split
    · exact plain_testFlags
    · simp

theorem length_testAddress_le (v4 v6 : Field) (address : Option Address) :
    (testAddress v4 v6 address).length ≤ 2 := by
  match address with
  | none => simp [testAddress]
  | some (.v4 o) => simp [testAddress, test]
  | some (.v6 o) => simp [testAddress, test]

theorem length_testPort_le (f : Field) (port : Option UInt16) :
    (testPort f port).length ≤ 2 := by
  unfold testPort
  split <;> simp [test]

theorem length_tests_le (c : Counter) : (tests c).length ≤ 13 := by
  have hs := length_testAddress_le .sourceV4 .sourceV6 c.source
  have hd := length_testAddress_le .destinationV4 .destinationV6 c.destination
  have hsp := length_testPort_le .sourcePort c.sourcePort
  have hdp := length_testPort_le .destinationPort c.destinationPort
  have hp : (testProtocol c.protocol).length ≤ 2 := by
    cases c.protocol <;> simp [testProtocol, test]
  have hf : (testFlags c.flags).length ≤ 3 := by
    unfold testFlags
    split <;> simp
  unfold tests
  split <;> split <;> simp only [List.length_append, List.length_nil] <;> omega

theorem exprsLength_le {es : List Expr} (h : ∀ e ∈ es, Plain e) :
    exprsLength es ≤ 68 * es.length := by
  induction es with
  | nil => simp [exprsLength]
  | cons e es ih =>
    have he := (h e List.mem_cons_self).length_le
    have hes := ih fun x hx => h x (List.mem_cons_of_mem e hx)
    unfold exprsLength at hes ⊢
    rw [List.map_cons, List.sum_cons, List.length_cons]
    omega

section Installed
variable (chain : Chain) {c : Counter} (handle : Option UInt64) (packets bytes : UInt64)

theorem plain_installed : ∀ e ∈ (installed chain c handle packets bytes).exprs, Plain e := by
  refine List.forall_mem_append.2 ⟨plain_tests c, ?_⟩
  simp only [List.forall_mem_cons, List.not_mem_nil, false_imp_iff, implies_true, and_true]
  exact ⟨trivial, trivial, by simp only [exprLength]; decide⟩

/-- The rule of a counter can be written if its names and its label can, whatever it has counted. -/
theorem expressible_installed {family : Family} (ht : Nameable chain.table.name)
    (hc : Nameable chain.name) (h : c.WellFormed family) :
    (Edit.addRule (installed chain c handle packets bytes)).Expressible := by
  have hplain := plain_installed chain (c := c) handle packets bytes
  refine ⟨fun e he => ⟨(hplain e he).writable, (hplain e he).canonical⟩,
    ⟨ht.text, hc.text, ?_⟩, ⟨ht.fits, hc.fits, fun list hl => ?_⟩⟩
  · simpa using ⟨h.label_fits, h.label_text⟩
  · have hle := exprsLength_le hplain
    have hlen : (installed chain c handle packets bytes).exprs.length ≤ 14 := by
      have := length_tests_le c
      simp
      omega
    rw [Wire.Fits, length_writeExprs hl]
    omega

end Installed

end Rule

/-! ## Layouts -/

theorem Ruleset.chain_of_findChain? {rs : Ruleset} {t : Table} {name : String} {s : ChainState}
    (hrs : ∀ t ∈ rs.tables, ∀ s ∈ t.chains, s.chain.table = t.table)
    (h : rs.findChain? t name = some s) : s.chain.table = t ∧ s.chain.name = name := by
  obtain ⟨ts, hts, hs⟩ := Option.bind_eq_some_iff.1 h
  have ht : ts.table = t := by simpa using List.find?_some hts
  have hn : s.chain.name = name := by simpa using List.find?_some hs
  exact ⟨(hrs ts (List.mem_of_find?_eq_some hts) s (List.mem_of_find?_eq_some hs)).trans ht, hn⟩

namespace Layout

open Wire

/-- The names of a layout can be written and read. -/
structure NamesFit (l : Layout) : Prop where
  table : Wire.Nameable l.tableName
  chain : ∀ d, Wire.Nameable (l.chainName d)

/-- Every request about a layout has an encoding, and is read as what it is about. -/
structure Expressible (l : Layout) (set : CounterSet) : Prop where
  table : ∃ p, writeTable l.table = .ok p ∧ readTable p = .ok l.table
  chain : ∀ d, ∃ p, writeChainName l.table (l.chainName d) = .ok p ∧
    readChain p = .ok ⟨l.table, l.chainName d, none⟩
  rules : ∀ d, ∃ p, writeRuleScope l.table (some (l.chainName d)) = .ok p ∧
    readRule p = .ok { table := l.table, chain := l.chainName d }
  setup : ∀ rs : Ruleset, (∀ t ∈ rs.tables, ∀ s ∈ t.chains, s.chain.table = t.table) → ∀ seq,
    ∃ ms, batchMessages seq (l.setupEdits rs set) = .ok ms ∧
      List.Forall₂ (fun e p => e.ReadsBack p) (l.setupEdits rs set) (editPayloads ms)

variable {l : Layout} {set : CounterSet}

theorem expressible_of_mem_setupEdits (hl : l.NamesFit) (hs : set.Accepted l.family) {rs : Ruleset}
    (hrs : ∀ t ∈ rs.tables, ∀ s ∈ t.chains, s.chain.table = t.table) :
    ∀ e ∈ l.setupEdits rs set, e.Expressible := by
  have hdir : ∀ d, ∀ e ∈ l.directionEdits rs d (set.get d), e.Expressible := by
    intro d
    simp only [directionEdits, chainEdits, List.forall_mem_append, List.forall_mem_cons]
    refine ⟨?_, ⟨hl.table, hl.chain d⟩, ?_⟩
    · cases hf : rs.findChain? l.table (l.chainName d) with
      | none => simp
      | some s =>
        -- the chain is flushed and deleted under the names that it was found by
        obtain ⟨ht, hn⟩ := Ruleset.chain_of_findChain? hrs hf
        have hc : Wire.Nameable s.chain.table.name ∧ Wire.Nameable s.chain.name :=
          ⟨ht ▸ hl.table, hn ▸ hl.chain d⟩
        simpa using ⟨hc, hc⟩
    · intro e he
      obtain ⟨c, hc, rfl⟩ := List.mem_map.1 he
      exact Rule.expressible_installed (l.chain d) none 0 0 hl.table (hl.chain d)
        (hs.wellFormed d c hc)
  simp only [setupEdits, List.forall_mem_append]
  refine ⟨?_, hdir .input, hdir .output⟩
  unfold tableEdits
  split
  · simp
  · exact List.forall_mem_singleton.2 hl.table

theorem expressible_of_namesFit (hl : l.NamesFit) (hs : set.Accepted l.family) :
    l.Expressible set where
  table := exists_writeTable hl.table
  chain d := exists_writeChainName hl.table (hl.chain d)
  rules d := exists_writeRuleScope hl.table (hl.chain d)
  setup _ hrs seq := exists_batchMessages (expressible_of_mem_setupEdits hl hs hrs) seq

/-- Whoever is read as it was written has names that can be. -/
theorem namesFit_of_expressible (h : l.Expressible set) : l.NamesFit := by
  have hd : ∀ d, Wire.Nameable l.tableName ∧ Wire.Nameable (l.chainName d) := by
    intro d
    -- the request for the rules of a chain has both names
    obtain ⟨p, hw, hr⟩ := h.rules d
    obtain ⟨ht, hc, rfl⟩ := writeRuleScope_eq_ok_iff.1 hw
    obtain ⟨hft, hfc, -⟩ := sound_of_readRule hr
    obtain ⟨body, s, hbody, hs, -⟩ := exists_of_readRule hr
    rw [readHeader_header] at hbody
    obtain rfl : _ = body := (Prod.mk.inj (Except.ok.inj hbody)).2
    rw [← List.append_nil (attr RuleAttr.chain _)] at hs
    obtain ⟨hft, hfc, -⟩ := fits_of_absorb_names ht hft hc hfc hs
    exact ⟨⟨ht, hft⟩, ⟨hc, hfc⟩⟩
  exact ⟨(hd .input).1, fun d => (hd d).2⟩

theorem expressible_iff (hs : set.Accepted l.family) : l.Expressible set ↔ l.NamesFit :=
  ⟨namesFit_of_expressible, fun hl => expressible_of_namesFit hl hs⟩

end Layout

/-! ## Configurations -/

namespace Config

variable {c : Config}

theorem settingFault_of_validate (h : c.validate.value = .ok ()) : c.settingFault = none := by
  unfold validate at h
  split at h
  · simp at h
  · assumption

theorem chains_ne (h : c.settingFault = none) : c.layout.inputChain ≠ c.layout.outputChain := by
  unfold settingFault at h
  simp only [List.findSome?_eq_none_iff, List.forall_mem_cons, id_eq, ite_eq_left_iff,
    reduceCtorEq, imp_false, Bool.not_eq_true, Bool.not_eq_false, decide_eq_true_eq] at h
  obtain ⟨-, -, -, -, -, hne, -⟩ := h
  exact not_not.1 hne

theorem exists_listenSocket (h : c.settingFault = none) :
    ∃ s, c.exporter.listenSocket = .ok s := by
  unfold settingFault at h
  simp only [List.findSome?_eq_none_iff, List.forall_mem_cons, id_eq, ite_eq_left_iff,
    reduceCtorEq, imp_false, Bool.not_eq_true, Bool.not_eq_false, beq_iff_eq] at h
  obtain ⟨-, -, -, -, -, -, -, haddress, hendpoint, -⟩ := h
  obtain ⟨a, ha⟩ := Option.isSome_iff_exists.1 haddress
  exact ⟨_, by rw [Exporter.listenSocket, if_neg (by simp [hendpoint]), ha]⟩

/-- Of an accepted configuration, the exporter has a socket, and the requests about its layout and
counters can all be written and are read as they were meant, if its names can. -/
theorem expressible_of_validate (h : c.validate.value = .ok ()) :
    (∃ s, c.exporter.listenSocket = .ok s) ∧
      (c.layout.Expressible c.counters ↔ c.layout.NamesFit) :=
  ⟨exists_listenSocket (settingFault_of_validate h),
    Layout.expressible_iff (accepted_of_validate h)⟩

/-- One counter that asks for a port and a flag, and one that takes all. -/
def webServer : Config where
  counters.input :=
    [{ label := "web", protocol := some .tcp, destinationPort := some 443, flags := ⟨2⟩ }]
  counters.output := [{ label := "rest" }]

theorem expressible_of_validate_webServer : webServer.validate.value = .ok () ∧
    (∃ s, webServer.exporter.listenSocket = .ok s) ∧
    webServer.layout.Expressible webServer.counters := by
  have h : webServer.validate.value = .ok () := rfl
  obtain ⟨hlisten, hiff⟩ := expressible_of_validate h
  refine ⟨h, hlisten, hiff.2 ⟨⟨by decide, by decide⟩, fun d => ?_⟩⟩
  cases d <;> exact ⟨by decide, by decide⟩

/-- A table whose name cannot be written. -/
def nulNamed : Config where
  layout := { tableName := "a\x00b" }

theorem nulNamed_accepted : nulNamed.validate.value = .ok () ∧
    Wire.writeTable nulNamed.layout.table = .error (.nulInName "a\x00b") :=
  ⟨rfl, rfl⟩

end Config

end FlowTally
