import FlowTally.Config.Read
import FlowTally.Config.Write
import FlowTally.Proofs.AddressText
/-!
# Reading configurations as they are written

What is written of a configuration is read back as it was, in every dialect, unless one of its
counters has a direction or a total. Those are written but are no part of a declaration, and then
nothing of the configuration is taken.

Of a counter only that is written which says something. `Counter.slots` has a place for everything
there is to say, and `filled` leaves out the empty ones; a reader finds under each key what its slot
holds (`fields?_filled`), so that each field is a matter of its own value.
-/

namespace FlowTally

namespace Config

/-! ## Values -/

theorem readInt_nat (n : Nat) : readInt (.nat n) = some (n : Int) := rfl

theorem readPort_nat (p : UInt16) : (readInt (.nat p.toNat)).bind Text.uint16? = some p := by
  rw [readInt_nat, Option.bind_some, Text.uint16?_toNat]

theorem readInterval_nat (n : UInt64) : (readInt (.nat n.toNat)).bind Text.uint64? = some n := by
  rw [readInt_nat, Option.bind_some, Text.uint64?_toNat]

theorem readPriority_int (n : Int32) : (readInt (.int n.toInt)).bind Text.int32? = some n := by
  rw [readInt, Option.bind_some, Text.int32?_toInt]

/-- A reader that takes some of what is written takes a list of which it takes every element. -/
theorem readList_map {α : Type} (write : α → Data) (read : Data → Option α) (p : α → Prop)
    [DecidablePred p] (h : ∀ a, read (write a) = if p a then some a else none) (xs : List α) :
    readList read (.array (xs.map write)) = if ∀ x ∈ xs, p x then some xs else none := by
  simp only [readList]
  induction xs with
  | nil => simp
  | cons x xs ih =>
    rw [List.map_cons, List.mapM_cons, h, ih]
    by_cases hx : p x
    · by_cases hxs : ∀ y ∈ xs, p y
      · rw [if_pos hx, if_pos hxs, if_pos (List.forall_mem_cons.2 ⟨hx, hxs⟩)]
        rfl
      · rw [if_pos hx, if_neg hxs, if_neg fun hall => hxs (List.forall_mem_cons.1 hall).2]
        rfl
    · rw [if_neg hx, if_neg fun hall => hx (List.forall_mem_cons.1 hall).1]
      rfl

theorem readFlags_toData (s : TcpFlags) : readFlags s.toData = some s := by
  have hlist := readList_map (fun f : TcpFlag => .text f.name)
    (fun d => (readText d).bind fun s => (TcpFlag.ofName s).toOption) (fun _ => True)
    (fun f => by simp [readText, Except.toOption]) s.toList
  simp only [readFlags, TcpFlags.toData, TcpFlags.names, List.map_map]
  simp [Function.comp_def, hlist]

/-! ## Entries -/

/-- The entries that are written: one for each slot that holds something. -/
def filled (slots : List (String × Option Data)) : List (String × Data) :=
  slots.filterMap fun s => s.2.map (s.1, ·)

/-- What a reader finds under a key. -/
def found (slots : List (String × Option Data)) : Fields := fun k => (slots.lookup k).join

theorem filled_cons (key : String) (value : Option Data) (slots : List (String × Option Data)) :
    filled ((key, value) :: slots) = Data.optional key id value ++ filled slots := by
  cases value <;> rfl

theorem optional_map {α : Type} (key : String) (write : α → Data) (value : Option α) :
    Data.optional key id (value.map write) = Data.optional key write value := by
  cases value <;> rfl

theorem lookup_filled {slots : List (String × Option Data)} (h : (slots.map Prod.fst).Nodup)
    (k : String) : (filled slots).lookup k = found slots k := by
  simp only [found]
  induction slots with
  | nil => rfl
  | cons slot slots ih =>
    obtain ⟨key, value⟩ := slot
    obtain ⟨hkey, hrest⟩ := List.nodup_cons.1 h
    by_cases hk : k = key
    · subst hk
      cases value with
      | some d => simp [filled]
      | none =>
        -- nothing further on has the key either
        have hnone : slots.lookup k = none := by
          refine List.lookup_eq_none_iff.2 fun slot hslot => ?_
          simp only [bne_iff_ne]
          exact fun heq => hkey (List.mem_map.2 ⟨slot, hslot, heq.symm⟩)
        have hlater := ih hrest
        rw [hnone] at hlater
        simpa [filled] using hlater
    · have hne : (k == key) = false := by simpa using hk
      rw [List.lookup_cons, hne, ← ih hrest]
      cases value with
      | some d => simp [filled, List.lookup_cons, hne]
      | none => simp [filled]

/-- A record that may have no other keys is taken if each slot that holds something is known. -/
theorem fields?_filled (dl : Dialect) {names : List String} {slots : List (String × Option Data)}
    (h : (slots.map Prod.fst).Nodup) :
    fields? dl true names (.table (filled slots)) =
      if ∀ s ∈ slots, s.2.isSome → s.1 ∈ names then some (found slots) else none := by
  have hfound : (fun k => (filled slots).lookup k) = found slots := funext (lookup_filled h)
  have hknown : ((filled slots).filter fun e => e.1 ∉ names).all (fun e => !true && e.2.isReadable)
      = true ↔ ∀ s ∈ slots, s.2.isSome → s.1 ∈ names := by
    simp only [filled, List.all_filter, List.all_filterMap, List.all_eq_true]
    refine forall₂_congr fun s _ => ?_
    cases s.2 with
    | none => simp
    | some d => simp
  simp only [fields?, hfound, hknown]

/-! ## Fields -/

section
variable {fs : Fields} {name : String}

/-- A field that is always written. -/
theorem get_found {α : Type} {read : Data → Option α} {default a : α} {d : Data}
    (h : fs name = some d) (hread : read d = some a) : fs.get name default read = some a := by
  simp [Fields.get, h, hread]

theorem get_text {s default : String} (h : fs name = some (.text s)) :
    fs.get name default readText = some s :=
  get_found h rfl

theorem get_family (dl : Dialect) {f default : Family} (h : fs name = some (.text f.name)) :
    fs.get name default (readName dl Family.ofName?) = some f :=
  get_found h (Family.ofName?_name f)

theorem get_priority {n default : Int32} (h : fs name = some (.int n.toInt)) :
    fs.get name default (fun d => (readInt d).bind Text.int32?) = some n :=
  get_found h (readPriority_int n)

theorem get_number {n default : UInt16} (h : fs name = some (.nat n.toNat)) :
    fs.get name default (fun d => (readInt d).bind Text.uint16?) = some n :=
  get_found h (readPort_nat n)

theorem get_interval {n default : UInt64} (h : fs name = some (.nat n.toNat)) :
    fs.get name default (fun d => (readInt d).bind Text.uint64?) = some n :=
  get_found h (readInterval_nat n)

/-- A field that is left out if there is nothing to say. -/
theorem get_optional {α : Type} {read : Data → Option α} (write : α → Data) {o : Option α}
    (hread : ∀ a, read (write a) = some a) (hnull : ∀ a, (write a).isNull = false)
    (h : fs name = o.map write) : fs.get name none (readOptional read) = some o := by
  cases o with
  | none => simp [Fields.get, h]
  | some a => simp [Fields.get, h, readOptional, hnull, hread]

theorem get_address {o : Option Address} (h : fs name = o.map fun a => .text a.text) :
    fs.get name none (readOptional fun d => (readText d).bind Address.parse?) = some o :=
  get_optional _ (fun a => by simp [readText, Address.parse?_text]) (fun _ => rfl) h

theorem get_protocol (dl : Dialect) {o : Option Protocol}
    (h : fs name = o.map fun p => .text p.name) :
    fs.get name none (readOptional (readName dl Protocol.ofName?)) = some o :=
  get_optional _ (fun p => by simp [readName]) (fun _ => rfl) h

theorem get_port {o : Option UInt16} (h : fs name = o.map fun p => .nat p.toNat) :
    fs.get name none (readOptional fun d => (readInt d).bind Text.uint16?) = some o :=
  get_optional _ readPort_nat (fun _ => rfl) h

/-- No flags are what a record has that does not speak of them. -/
theorem get_flags {s : TcpFlags}
    (h : fs name = (if s.isEmpty then none else some s).map TcpFlags.toData) :
    fs.get name TcpFlags.empty readFlags = some s := by
  by_cases hs : s.isEmpty = true
  · rw [if_pos hs] at h
    simp [Fields.get, h, TcpFlags.eq_empty_of_isEmpty hs]
  · rw [if_neg hs] at h
    simp [Fields.get, h, readFlags_toData]

end

end Config

/-! ## Counters -/

namespace Counter

/-- Nothing is set but what a declaration says. -/
def IsDeclared (c : Counter) : Prop := c.direction = none ∧ c.packets = 0 ∧ c.bytes = 0

instance : DecidablePred IsDeclared := fun _ => inferInstanceAs (Decidable (_ ∧ _ ∧ _))

/-- What there is to say under each key. -/
def slots (c : Counter) : List (String × Option Data) :=
  let total (n : UInt64) : Option UInt64 := if n = 0 then none else some n
  [("label", some (.text c.label)),
   ("src_addr", c.source.map fun a => .text a.text),
   ("dst_addr", c.destination.map fun a => .text a.text),
   ("protocol", c.protocol.map fun p => .text p.name),
   ("src_port", c.sourcePort.map fun p => .nat p.toNat),
   ("dst_port", c.destinationPort.map fun p => .nat p.toNat),
   ("tcp_flags", (if c.flags.isEmpty then none else some c.flags).map TcpFlags.toData),
   ("direction", c.direction.map fun d => .text d.name),
   ("packets", (total c.packets).map fun n => .nat n.toNat),
   ("bytes", (total c.bytes).map fun n => .nat n.toNat)]

theorem toData_eq_filled (c : Counter) : c.toData = .table (Config.filled c.slots) := by
  simp only [toData, slots, Config.filled_cons, Config.optional_map, List.cons_append,
    List.append_assoc]
  simp [Data.optional, Config.filled]

theorem nodup_keys (c : Counter) : (c.slots.map Prod.fst).Nodup := by
  simp [slots]

theorem isDeclared_iff_known (c : Counter) :
    c.IsDeclared ↔ ∀ s ∈ c.slots, s.2.isSome → s.1 ∈ Config.counterFields := by
  simp [slots, Config.counterFields, IsDeclared, Option.eq_none_iff_forall_not_mem]

end Counter

namespace Config

/-- A counter is read back unless it has what only a counter that was read from rules has. -/
theorem readCounter_toData (dl : Dialect) (c : Counter) :
    readCounter dl c.toData = if c.IsDeclared then some c else none := by
  rw [readCounter, Counter.toData_eq_filled, fields?_filled dl c.nodup_keys]
  simp only [← c.isDeclared_iff_known]
  by_cases h : c.IsDeclared
  · have ⟨hdirection, hpackets, hbytes⟩ := h
    have hlabel : (found c.slots).get "label" "" readText = some c.label := rfl
    have hsource := get_address (show found c.slots "src_addr" = _ from rfl)
    have hdestination := get_address (show found c.slots "dst_addr" = _ from rfl)
    have hprotocol := get_protocol dl (show found c.slots "protocol" = _ from rfl)
    have hsourcePort := get_port (show found c.slots "src_port" = _ from rfl)
    have hdestinationPort := get_port (show found c.slots "dst_port" = _ from rfl)
    have hflags := get_flags (show found c.slots "tcp_flags" = _ from rfl)
    rw [if_pos h, if_pos h]
    simp only [Option.bind_eq_bind, Option.bind_some, hlabel, hsource, hdestination, hprotocol,
      hsourcePort, hdestinationPort, hflags, Option.pure_def]
    obtain ⟨⟩ := c
    cases hdirection
    cases hpackets
    cases hbytes
    rfl
  · simp [h]

theorem readCounterSet_toData (dl : Dialect) (s : CounterSet) :
    readCounterSet dl s.toData =
      if ∀ c ∈ s.input ++ s.output, c.IsDeclared then some s else none := by
  have hlist := readList_map Counter.toData (readCounter dl) Counter.IsDeclared
    (readCounter_toData dl)
  have hfields : ∃ fs, fields? dl true counterSetFields s.toData = some fs ∧
      fs "input" = some (.array (s.input.map Counter.toData)) ∧
      fs "output" = some (.array (s.output.map Counter.toData)) := by
    simp [fields?, CounterSet.toData, counterSetFields, List.lookup_cons]
  obtain ⟨fs, hfields, hinput, houtput⟩ := hfields
  simp only [readCounterSet, hfields, Option.bind_eq_bind, Option.bind_some, Fields.get, hinput,
    houtput, hlist, List.forall_mem_append, Option.pure_def]
  by_cases hin : ∀ c ∈ s.input, c.IsDeclared
  · by_cases hout : ∀ c ∈ s.output, c.IsDeclared
    · rw [if_pos hin, if_pos hout, if_pos ⟨hin, hout⟩]
      rfl
    · simp [hout]
  · simp [hin]

/-! ## Sections -/

theorem readGeneral_toData (dl : Dialect) (g : General) : readGeneral dl g.toData = some g := by
  have hfields : ∃ fs, fields? dl false generalFields g.toData = some fs ∧
      fs "log_level" = some (.text g.logLevel) ∧
      fs "log_format" = some (.text g.logFormat) := by
    simp [fields?, General.toData, generalFields, List.lookup_cons]
  obtain ⟨fs, hfields, hlevel, hformat⟩ := hfields
  simp only [readGeneral, hfields, Option.bind_eq_bind, Option.bind_some, get_text hlevel,
    get_text hformat, Option.pure_def]

theorem readLayout_toData (dl : Dialect) (l : Layout) : readLayout dl l.toData = some l := by
  have hfields : ∃ fs, fields? dl false layoutFields l.toData = some fs ∧
      fs "family" = some (.text l.family.name) ∧
      fs "table_name" = some (.text l.tableName) ∧
      fs "input_chain" = some (.text l.inputChain) ∧
      fs "output_chain" = some (.text l.outputChain) ∧
      fs "chain_priority" = some (.int l.priority.toInt) := by
    simp [fields?, Layout.toData, layoutFields, List.lookup_cons]
  obtain ⟨fs, hfields, hfamily, htable, hinput, houtput, hpriority⟩ := hfields
  simp only [readLayout, hfields, Option.bind_eq_bind, Option.bind_some, get_family dl hfamily,
    get_text htable, get_text hinput, get_text houtput, get_priority hpriority, Option.pure_def]

theorem readExporter_toData (dl : Dialect) (e : Exporter) : readExporter dl e.toData = some e := by
  have hfields : ∃ fs, fields? dl false exporterFields e.toData = some fs ∧
      fs "interval_secs" = some (.nat e.interval.toNat) ∧
      fs "listen_addr" = some (.text e.address) ∧
      fs "port" = some (.nat e.port.toNat) ∧
      fs "endpoint" = some (.text e.endpoint) := by
    simp [fields?, Exporter.toData, exporterFields, List.lookup_cons]
  obtain ⟨fs, hfields, hinterval, haddress, hport, hendpoint⟩ := hfields
  simp only [readExporter, hfields, Option.bind_eq_bind, Option.bind_some, get_interval hinterval,
    get_text haddress, get_number hport, get_text hendpoint, Option.pure_def]

/-! ## Configurations -/

/-- A configuration is read back as it is written, unless a counter has more than is declared. -/
theorem ofData?_toData (dl : Dialect) (c : Config) :
    ofData? dl c.toData =
      if ∀ x ∈ c.counters.input ++ c.counters.output, x.IsDeclared then some c else none := by
  have hfields : ∃ fs, fields? dl false sectionNames c.toData = some fs ∧
      fs "general" = some c.general.toData ∧
      fs "nftables" = some c.layout.toData ∧
      fs "exporter" = some c.exporter.toData ∧
      fs "counters" = some c.counters.toData := by
    simp [fields?, toData, sectionNames, List.lookup_cons]
  obtain ⟨fs, hfields, hgeneral, hlayout, hexporter, hcounters⟩ := hfields
  simp only [ofData?, hfields, Option.bind_eq_bind, Option.bind_some, Fields.get, hgeneral,
    hlayout, hexporter, hcounters, readGeneral_toData, readLayout_toData, readExporter_toData,
    readCounterSet_toData, Option.pure_def]
  split
  · rfl
  · rfl

end Config

end FlowTally
