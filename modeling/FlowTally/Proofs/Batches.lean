import FlowTally.Proofs.Framing
import FlowTally.Proofs.Numbering
import FlowTally.Proofs.Requests
/-!
# Batches on the wire and back

The datagram of a batch is read as one message for each edit between the two markers
(`Wire.exists_datagram`). The type and the flags of a message tell what is done, its payload to what
(`Edit.Says`), and the messages whose numbers are waited for are those of the edits.
-/

namespace FlowTally

open Wire

/-! ## What a message says -/

namespace Edit

/-- The type of the edit's message. Rules are deleted by their place, whether of a chain or of a
table. -/
def messageKind : Edit → UInt16
  | addTable _ => MessageKind.newTable
  | addChain _ => MessageKind.newChain
  | addRule _ => MessageKind.newRule
  | flushChain _ | flushTable _ => MessageKind.deleteRule
  | deleteChain _ => MessageKind.deleteChain
  | deleteTable _ => MessageKind.deleteTable

/-- The flags of the edit's message. What is added is created, and a rule comes behind the others. -/
def messageFlags : Edit → UInt16
  | addTable _ | addChain _ => Flag.request ||| Flag.ack ||| Flag.create
  | addRule _ => Flag.request ||| Flag.ack ||| Flag.create ||| Flag.append
  | flushChain _ | deleteChain _ | flushTable _ | deleteTable _ => Flag.request ||| Flag.ack

/-- The message says what the edit does and to what. That the rules of a whole table are deleted is
said by naming no chain. -/
structure Says (e : Edit) (m : Message) : Prop where
  kind : m.kind = e.messageKind
  flags : m.flags = e.messageFlags
  payload : e.ReadsBack m.payload
  wholeTable : ∀ t, e = flushTable t →
    attributes (m.payload.drop 4) = [.ok ⟨RuleAttr.table, terminated t.name⟩]

variable {e : Edit} {m : Message}

theorem kind_of_writeEdit (h : writeEdit e = .ok m) : m.kind = e.messageKind := by
  cases e <;> obtain ⟨payload, -, rfl⟩ := map_eq_ok_iff.1 h <;> rfl

theorem flags_of_writeEdit (h : writeEdit e = .ok m) : m.flags = e.messageFlags := by
  cases e <;> obtain ⟨payload, -, rfl⟩ := map_eq_ok_iff.1 h <;> rfl

/-- The names of an edit that deletes the rules of a table are the table's. -/
theorem attributes_of_flushTable {t : Table} (hn : Nameable t.name)
    (h : writeEdit (.flushTable t) = .ok m) :
    attributes (m.payload.drop 4) = [.ok ⟨RuleAttr.table, terminated t.name⟩] := by
  obtain ⟨payload, hp, rfl⟩ := map_eq_ok_iff.1 h
  obtain ⟨-, rfl⟩ := writeTableScope_eq_ok_iff.1 hp
  have hplain : RuleAttr.table < 0x4000 := by decide
  have hone := attributes_attr hplain hn.fits []
  rw [List.append_nil, attributes_nil] at hone
  exact hone

theorem Expressible.exists_saying (h : e.Expressible) : ∃ m, writeEdit e = .ok m ∧ e.Says m := by
  obtain ⟨m, hm, hread⟩ := h.exists_writeEdit
  refine ⟨m, hm, kind_of_writeEdit hm, flags_of_writeEdit hm, hread, ?_⟩
  rintro t rfl
  exact attributes_of_flushTable h hm

/-! ## How long messages get -/

theorem length_attr_lt (kind : UInt16) {data : Bytes} (h : Wire.Fits data) :
    (attr kind data).length < 0x10001 := by
  have hp := padded_spec data.length
  rw [length_attr]
  unfold Wire.Fits at h
  omega

theorem length_header (number : UInt8) (resource : Nat) : (header number resource).length = 4 := by
  simp [header]

theorem length_writeTable_lt {t : Table} {bs : Bytes} (hn : Nameable t.name)
    (h : writeTable t = .ok bs) : bs.length < 0x10010 := by
  obtain ⟨-, rfl⟩ := writeTable_eq_ok_iff.1 h
  have ha := length_attr_lt TableAttr.name hn.fits
  rw [List.length_append, length_header]
  omega

theorem length_writeChainName_lt {t : Table} {chain : String} {bs : Bytes} (ht : Nameable t.name)
    (hn : Nameable chain) (h : writeChainName t chain = .ok bs) : bs.length < 0x20010 := by
  obtain ⟨-, -, rfl⟩ := writeChainName_eq_ok_iff.1 h
  have ha := length_attr_lt ChainAttr.table ht.fits
  have hb := length_attr_lt ChainAttr.name hn.fits
  rw [List.length_append, List.length_append, length_header]
  omega

theorem length_writeAttachment {k : Hook} {bs : Bytes} (h : writeAttachment k = .ok bs) :
    bs.length = 40 := by
  simp only [writeAttachment, bind_eq_ok_iff, pure_eq_ok_iff, string_eq_ok_iff] at h
  obtain ⟨_, ⟨-, rfl⟩, rfl⟩ := h
  have htype : (terminated "filter").length = 7 := by decide
  simp [writeHook, length_nat32, htype, padded, padding]

theorem length_writeChain_lt {c : Chain} {bs : Bytes} (ht : Nameable c.table.name)
    (hn : Nameable c.name) (h : writeChain c = .ok bs) : bs.length < 0x20040 := by
  obtain ⟨names, hnames, h⟩ := bind_eq_ok_iff.1 h
  have hl := length_writeChainName_lt ht hn hnames
  split at h
  · cases h
    omega
  · obtain ⟨rest, hrest, h⟩ := bind_eq_ok_iff.1 h
    cases h
    rw [List.length_append, length_writeAttachment hrest]
    omega

theorem length_writeRuleScope_lt {t : Table} {chain : String} {bs : Bytes} (ht : Nameable t.name)
    (hn : Nameable chain) (h : writeRuleScope t (some chain) = .ok bs) : bs.length < 0x20010 := by
  obtain ⟨-, -, rfl⟩ := writeRuleScope_eq_ok_iff.1 h
  have ha := length_attr_lt RuleAttr.table ht.fits
  have hb := length_attr_lt RuleAttr.chain hn.fits
  rw [List.length_append, List.length_append, length_header]
  omega

theorem length_writeRule_lt {r : Rule} {bs : Bytes} (hf : r.Fits) (h : writeRule r = .ok bs) :
    bs.length < 0x40010 := by
  obtain ⟨ht, list, hl, rfl⟩ := writeRule_eq_ok_iff.1 h
  have ha := length_attr_lt RuleAttr.table hf.table
  have hb := length_attr_lt RuleAttr.chain hf.chain
  have hc := length_attr_lt (RuleAttr.exprs ||| 0x8000) (hf.exprs list hl)
  have hd : (commentAttr r.comment).length < 0x10001 := by
    cases hcomment : r.comment with
    | none => simp [commentAttr]
    | some c => exact length_attr_lt _ (fits_commentEntry (ht.comment c hcomment).1)
  simp only [ruleBody, nested, List.length_append, length_header]
  omega

/-- A message has room in its length if the attributes in it have. -/
theorem Expressible.fits (h : e.Expressible) (hm : writeEdit e = .ok m) : m.Fits := by
  have hlength : m.payload.length < 0x40010 := by
    cases e with
    | addTable t | deleteTable t =>
      obtain ⟨bs, hw, rfl⟩ := map_eq_ok_iff.1 hm
      exact (length_writeTable_lt h hw).trans (by decide)
    | flushTable t =>
      obtain ⟨bs, hw, rfl⟩ := map_eq_ok_iff.1 hm
      have hw' := writeTable_eq_ok_iff.2 (writeTableScope_eq_ok_iff.1 hw)
      exact (length_writeTable_lt h hw').trans (by decide)
    | addChain c =>
      obtain ⟨bs, hw, rfl⟩ := map_eq_ok_iff.1 hm
      exact (length_writeChain_lt h.1 h.2 hw).trans (by decide)
    | deleteChain c =>
      obtain ⟨bs, hw, rfl⟩ := map_eq_ok_iff.1 hm
      exact (length_writeChainName_lt h.1 h.2 hw).trans (by decide)
    | flushChain c =>
      obtain ⟨bs, hw, rfl⟩ := map_eq_ok_iff.1 hm
      exact (length_writeRuleScope_lt h.1 h.2 hw).trans (by decide)
    | addRule r =>
      obtain ⟨bs, hw, rfl⟩ := map_eq_ok_iff.1 hm
      exact length_writeRule_lt h.2.2 hw
  unfold Message.Fits
  omega

end Edit

/-! ## The datagram of a batch -/

namespace Wire

/-- The messages that are numbered one after the other are the same but for their numbers. -/
theorem number_append_singleton (seq : Nat → UInt32) (first last : Message) (ms : List Message) :
    number seq (first :: ms ++ [last]) = { first with seq := seq 0 } ::
      number (fun i => seq (i + 1)) ms ++ [{ last with seq := seq (ms.length + 1) }] := by
  simp [number, List.mapIdx_append]

theorem forall₂_number {R : Edit → Message → Prop} (hR : ∀ e m n, R e m → R e { m with seq := n })
    {b : Batch} {ms : List Message} (h : List.Forall₂ R b ms) :
    ∀ seq : Nat → UInt32, List.Forall₂ R b (number seq ms) := by
  induction h with
  | nil => exact fun seq => .nil
  | cons hm _ ih =>
    intro seq
    rw [number, List.mapIdx_cons]
    exact .cons (hR _ _ _ hm) (ih fun i => seq (i + 1))

/-- The datagram of a batch that can be expressed is read as its messages. Between two markers that
ask for no acknowledgement there is one for each edit, in their order, that says what the edit does
and asks for one; all have the numbers of the sequence, from the first marker to the last. -/
theorem exists_datagram {b : Batch} (h : ∀ e ∈ b, e.Expressible) (seq : Nat → UInt32) :
    ∃ ms edits, batchMessages seq b = .ok ms ∧ Message.read (datagram ms) = .ok ms ∧
      ms = ⟨MessageKind.batchBegin, Flag.request, seq 0, header 0 10⟩ :: edits ++
        [⟨MessageKind.batchEnd, Flag.request, seq (b.length + 1), header 0 10⟩] ∧
      ms.length = b.length + 2 ∧
      ms.map Message.seq = (List.range (b.length + 2)).map seq ∧
      acknowledged ms = edits.map Message.seq ∧
      List.Forall₂ Edit.Says b edits := by
  -- every edit has a message that says it and has room in its length
  obtain ⟨edits, hedits⟩ : ∃ edits, List.Forall₂ (fun e m => writeEdit e = .ok m ∧ e.Says m ∧ m.Fits)
      b edits := exists_forall₂_iff.2 fun e he => by
    obtain ⟨m, hm, hsaid⟩ := (h e he).exists_saying
    exact ⟨m, hm, hsaid, (h e he).fits hm⟩
  have hbatch : batchMessages seq b = .ok (number seq
      (marker MessageKind.batchBegin :: edits ++ [marker MessageKind.batchEnd])) :=
    batchMessages_eq_ok_iff.2 ⟨edits, hedits.imp fun _ _ h => h.1, rfl⟩
  have hnumber := number_append_singleton seq (marker MessageKind.batchBegin)
    (marker MessageKind.batchEnd) edits
  rw [hedits.length_eq.symm] at hnumber
  have hsaid : List.Forall₂ (fun e m => e.Says m ∧ m.Fits) b
      (number (fun i => seq (i + 1)) edits) :=
    forall₂_number (fun e m n h => ⟨⟨h.1.kind, h.1.flags, h.1.payload, h.1.wholeTable⟩, h.2⟩)
      (hedits.imp fun _ _ h => h.2) _
  have hfits : ∀ m ∈ number (fun i => seq (i + 1)) edits, m.Fits :=
    ((List.forall₂_and_left _ _).1 (hsaid.flip.imp fun _ _ h => And.symm h)).1
  have hseq := map_seq_batchMessages hbatch
  refine ⟨_, number (fun i => seq (i + 1)) edits, hbatch, ?_, hnumber, ?_, hseq, ?_,
    hsaid.imp fun _ _ h => h.1⟩
  · have hmarker (kind : UInt16) (n : UInt32) : ({ marker kind with seq := n } : Message).Fits :=
      (by decide : 16 + (header 0 10).length < 2 ^ 32)
    have hall : ∀ m ∈ number seq (marker MessageKind.batchBegin :: edits ++
        [marker MessageKind.batchEnd]), m.Fits := by
      rw [hnumber, List.forall_mem_append, List.forall_mem_cons, List.forall_mem_singleton]
      exact ⟨⟨hmarker _ _, hfits⟩, hmarker _ _⟩
    exact Message.read_datagram hall
  · rw [← List.length_map (f := Message.seq), hseq, List.length_map, List.length_range]
  · rw [acknowledged_batchMessages hbatch, map_seq_number, hedits.length_eq]

/-- An edit of each kind, among them a chain in front of all others on its hook. -/
def everyEdit : Batch :=
  let t : Table := ⟨.inet, "flowmon"⟩
  [.addTable t, .flushChain ⟨t, "input", none⟩, .deleteChain ⟨t, "input", none⟩,
    .addChain (.base t "input" .input (-300)),
    .addRule { table := t, chain := "input", handle := some 7, comment := some "ssh",
               exprs := [.metadata .protocol .scratch, .compare .scratch .equal [6],
                 .counter 0 0] },
    .flushTable t, .deleteTable t]

theorem exists_datagram_everyEdit : (∀ e ∈ everyEdit, e.Expressible) ∧
    ∃ ms edits, batchMessages (following 41) everyEdit = .ok ms ∧
      Message.read (datagram ms) = .ok ms ∧
      ms = ⟨MessageKind.batchBegin, Flag.request, 42, header 0 10⟩ :: edits ++
        [⟨MessageKind.batchEnd, Flag.request, 50, header 0 10⟩] ∧
      ms.length = 9 ∧
      ms.map Message.seq = [42, 43, 44, 45, 46, 47, 48, 49, 50] ∧
      acknowledged ms = edits.map Message.seq ∧
      List.Forall₂ Edit.Says everyEdit edits := by
  have htable : Nameable "flowmon" := ⟨by decide, by decide⟩
  have hchain : Nameable "input" := ⟨by decide, by decide⟩
  have h : ∀ e ∈ everyEdit, e.Expressible := by
    simp only [everyEdit, List.forall_mem_cons, List.not_mem_nil, false_imp_iff, implies_true,
      and_true]
    refine ⟨htable, ⟨htable, hchain⟩, ⟨htable, hchain⟩, ⟨htable, hchain⟩, ⟨?_, ?_, ?_⟩, htable,
      htable⟩
    · simp [Expr.Writable, Expr.Canonical, MetaKey.Canonical, MetaKey.ofRaw, MetaKey.raw,
        CompareOp.Canonical, CompareOp.ofRaw, CompareOp.raw]
    · exact ⟨htable.text, hchain.text, by simp; decide⟩
    · refine ⟨htable.fits, hchain.fits, fun list hlist => ?_⟩
      rw [Wire.Fits, length_writeExprs hlist]
      decide
  exact ⟨h, exists_datagram h (following 41)⟩

end Wire

end FlowTally
