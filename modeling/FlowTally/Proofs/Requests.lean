import FlowTally.Proofs.RuleMessages
import FlowTally.Wire.Batch
import Mathlib.Data.List.Forall2
/-!
# Requests on the wire and back

Tables, chains and the rules of a chain are asked for by names. If all names of an edit can be
written and have room (`Wire.Nameable`), then the edit has a message, whose payload is read as what
the edit is about (`Edit.Expressible.exists_writeEdit`); and a batch of such edits has one for each
of them between its markers (`Wire.exists_batchMessages`).
-/

namespace FlowTally

namespace Wire

/-- A name that can be written and has a message from which it is read. -/
structure Nameable (s : String) : Prop where
  text : '\x00' ∉ s.toList
  fits : Fits (terminated s)

/-! ## Tables -/

theorem writeTable_eq_ok_iff {t : Table} {bs : Bytes} : writeTable t = .ok bs ↔
    '\x00' ∉ t.name.toList ∧
      bs = header t.family.number 0 ++ attr TableAttr.name (terminated t.name) := by
  simp only [writeTable, bind_eq_ok_iff, pure_eq_ok_iff, string_eq_ok_iff]
  constructor
  · rintro ⟨_, ⟨ht, rfl⟩, rfl⟩
    exact ⟨ht, rfl⟩
  · rintro ⟨ht, rfl⟩
    exact ⟨_, ⟨ht, rfl⟩, rfl⟩

/-- The first attribute of a message names the table, whatever comes behind it. -/
theorem readTable_header {t : Table} (h : Nameable t.name) (rest : Bytes) :
    readTable (header t.family.number 0 ++ (attr TableAttr.name (terminated t.name) ++ rest)) =
      .ok t := by
  have hfirst : firstOf TableAttr.name
      (attributes (attr TableAttr.name (terminated t.name) ++ rest)) =
        .ok (some (terminated t.name)) := by
    rw [attributes_attr (by decide) h.fits]
    rfl
  rw [readTable, readHeader_header]
  simp only [bind, Except.bind, hfirst, readString_terminated h.text]
  rfl

theorem exists_writeTable {t : Table} (h : Nameable t.name) :
    ∃ bs, writeTable t = .ok bs ∧ readTable bs = .ok t := by
  refine ⟨_, writeTable_eq_ok_iff.2 ⟨h.text, rfl⟩, ?_⟩
  have hread := readTable_header h []
  rwa [List.append_nil] at hread

/-- The rules of a whole table are asked for under the same attribute as the table. -/
theorem writeTableScope_eq_ok_iff {t : Table} {bs : Bytes} : writeRuleScope t none = .ok bs ↔
    '\x00' ∉ t.name.toList ∧
      bs = header t.family.number 0 ++ attr TableAttr.name (terminated t.name) := by
  simp only [writeRuleScope, bind_eq_ok_iff, pure_eq_ok_iff, string_eq_ok_iff]
  constructor
  · rintro ⟨_, ⟨ht, rfl⟩, _, rfl, rfl⟩
    exact ⟨ht, List.append_nil _⟩
  · rintro ⟨ht, rfl⟩
    exact ⟨_, ⟨ht, rfl⟩, _, rfl, List.append_nil _⟩

/-! ## Chains -/

theorem writeChainName_eq_ok_iff {t : Table} {chain : String} {bs : Bytes} :
    writeChainName t chain = .ok bs ↔ '\x00' ∉ t.name.toList ∧ '\x00' ∉ chain.toList ∧
      bs = header t.family.number 0 ++ (attr ChainAttr.table (terminated t.name) ++
        attr ChainAttr.name (terminated chain)) := by
  simp only [writeChainName, bind_eq_ok_iff, pure_eq_ok_iff, string_eq_ok_iff]
  constructor
  · rintro ⟨_, ⟨ht, rfl⟩, _, ⟨hc, rfl⟩, rfl⟩
    exact ⟨ht, hc, List.append_assoc ..⟩
  · rintro ⟨ht, hc, rfl⟩
    exact ⟨_, ⟨ht, rfl⟩, _, ⟨hc, rfl⟩, List.append_assoc ..⟩

namespace ChainDraft

variable (s : ChainDraft) (data : Bytes)

theorem absorb_table : s.absorb ⟨ChainAttr.table, data⟩ =
    (readString data).map fun t => { s with table := some t } := rfl

theorem absorb_name : s.absorb ⟨ChainAttr.name, data⟩ =
    (readString data).map fun n => { s with name := some n } := rfl

theorem absorb_hook : s.absorb ⟨ChainAttr.hook, data⟩ =
    (readHook data).map fun h => { s with hook := h } := rfl

theorem absorb_policy : s.absorb ⟨ChainAttr.policy, data⟩ = .ok s := rfl

theorem absorb_type : s.absorb ⟨ChainAttr.type, data⟩ = .ok s := rfl

end ChainDraft

theorem readHook_writeHook (h : Hook) : readHook (writeHook h) = .ok (some h) := by
  have hread : absorb HookDraft.absorb {} (writeHook h) =
      .ok ⟨some h.direction.hookNumber, h.priority⟩ := by
    rw [writeHook, absorb_of_cons _ _ (attributes_nat32 (by decide) _ _)]
    simp only [HookDraft.absorb, if_true, readNat32_ofNatBE, Except.map, Except.bind]
    rw [← List.append_nil (nat32 HookAttr.priority _),
      absorb_of_cons _ _ (attributes_nat32 (by decide) _ _)]
    have hkind : HookAttr.priority ≠ HookAttr.number := by decide
    rw [HookDraft.absorb, if_neg hkind, if_pos rfl, readNat32_ofNatBE]
    simp [Except.map, Except.bind]
  simp [readHook, hread, bind, Except.bind, pure, Except.pure]

/-- A chain's hook, policy and type. -/
theorem absorb_attachment (s : ChainDraft) {h : Hook} {bs : Bytes}
    (hb : writeAttachment h = .ok bs) :
    absorb ChainDraft.absorb s bs = .ok { s with hook := some h } := by
  simp only [writeAttachment, bind_eq_ok_iff, pure_eq_ok_iff, string_eq_ok_iff] at hb
  obtain ⟨_, ⟨-, rfl⟩, rfl⟩ := hb
  have hfits : Fits (writeHook h) := by simp [Fits, writeHook, length_nat32]
  rw [List.append_assoc, absorb_nested _ _ (by decide) hfits, ChainDraft.absorb_hook,
    readHook_writeHook]
  simp only [Except.map, Except.bind]
  rw [absorb_of_cons _ _ (attributes_nat32 (by decide) _ _), ChainDraft.absorb_policy]
  simp only [Except.bind]
  rw [← List.append_nil (attr _ _), absorb_attr _ _ (by decide) (by decide), ChainDraft.absorb_type]
  simp only [Except.bind, absorb_nil]

section Chains
variable {t : Table} {name : String} (ht : Nameable t.name) (hn : Nameable name)
include ht hn

/-- A chain is read from its names and whatever describes it. -/
theorem readChain_names {rest : Bytes} {hook : Option Hook}
    (h : absorb ChainDraft.absorb ⟨t.name, name, none⟩ rest = .ok ⟨t.name, name, hook⟩) :
    readChain (header t.family.number 0 ++ (attr ChainAttr.table (terminated t.name) ++
      (attr ChainAttr.name (terminated name) ++ rest))) = .ok ⟨t, name, hook⟩ := by
  rw [readChain, readHeader_header]
  simp only [bind, Except.bind]
  rw [absorb_attr _ _ (by decide) ht.fits, ChainDraft.absorb_table, readString_terminated ht.text]
  simp only [Except.map, Except.bind]
  rw [absorb_attr _ _ (by decide) hn.fits, ChainDraft.absorb_name, readString_terminated hn.text]
  simp only [Except.map, Except.bind, h]
  rfl

theorem exists_writeChainName :
    ∃ bs, writeChainName t name = .ok bs ∧ readChain bs = .ok ⟨t, name, none⟩ := by
  refine ⟨_, writeChainName_eq_ok_iff.2 ⟨ht.text, hn.text, rfl⟩, ?_⟩
  have hread := readChain_names ht hn (absorb_nil _ _)
  rwa [List.append_nil] at hread

theorem exists_writeChain (hook : Option Hook) :
    ∃ bs, writeChain ⟨t, name, hook⟩ = .ok bs ∧ readChain bs = .ok ⟨t, name, hook⟩ := by
  have hname := writeChainName_eq_ok_iff.2 ⟨ht.text, hn.text, rfl⟩
  cases hook with
  | none =>
    obtain ⟨bs, hbs, hread⟩ := exists_writeChainName ht hn
    exact ⟨bs, by simp [writeChain, hbs, bind, Except.bind, pure, Except.pure], hread⟩
  | some h =>
    have hz : '\x00' ∉ "filter".toList := by decide
    obtain ⟨a, hattach⟩ : ∃ a, writeAttachment h = .ok a := by
      simp only [writeAttachment, bind_eq_ok_iff, pure_eq_ok_iff, string_eq_ok_iff]
      exact ⟨_, _, ⟨hz, rfl⟩, rfl⟩
    refine ⟨_, ?_, readChain_names ht hn (absorb_attachment _ hattach)⟩
    simp only [writeChain, bind_eq_ok_iff, pure_eq_ok_iff]
    exact ⟨_, hname, _, hattach, by simp only [List.append_assoc]⟩

/-- The rules of a chain are asked for by a message that is read as a rule of that chain. -/
theorem exists_writeRuleScope :
    ∃ bs, writeRuleScope t (some name) = .ok bs ∧
      readRule bs = .ok { table := t, chain := name } := by
  refine ⟨_, writeRuleScope_eq_ok_iff.2 ⟨ht.text, hn.text, rfl⟩, ?_⟩
  rw [readRule, readHeader_header]
  simp only [bind, Except.bind]
  rw [← List.append_nil (attr RuleAttr.chain _),
    absorb_ruleNames ht.text ht.fits hn.text hn.fits, absorb_nil]
  rfl

end Chains

end Wire

/-! ## Edits -/

namespace Edit

open Wire

/-- The payload of the edit's message is read as what the edit is about. -/
def ReadsBack (payload : Bytes) : Edit → Prop
  | addTable t | deleteTable t | flushTable t => readTable payload = .ok t
  | addChain c => readChain payload = .ok c
  | deleteChain c => readChain payload = .ok ⟨c.table, c.name, none⟩
  | flushChain c => readRule payload = .ok { table := c.table, chain := c.name }
  | addRule r => readRule payload = .ok r.withoutHandle

/-- What an edit is about can be written and has a message from which it is read. -/
def Expressible : Edit → Prop
  | addTable t | deleteTable t | flushTable t => Nameable t.name
  | addChain c | deleteChain c | flushChain c => Nameable c.table.name ∧ Nameable c.name
  | addRule r => (∀ e ∈ r.exprs, e.Writable ∧ e.Canonical) ∧ r.Terminable ∧ r.Fits

theorem Expressible.exists_writeEdit {e : Edit} (h : e.Expressible) :
    ∃ m, writeEdit e = .ok m ∧ e.ReadsBack m.payload := by
  cases e with
  | addTable t | deleteTable t =>
    obtain ⟨bs, hw, hr⟩ := exists_writeTable h
    exact ⟨_, map_eq_ok_iff.2 ⟨bs, hw, rfl⟩, hr⟩
  | flushTable t =>
    refine ⟨_, map_eq_ok_iff.2 ⟨_, writeTableScope_eq_ok_iff.2 ⟨h.text, rfl⟩, rfl⟩, ?_⟩
    have hread := readTable_header h []
    rwa [List.append_nil] at hread
  | addChain c =>
    obtain ⟨bs, hw, hr⟩ := exists_writeChain h.1 h.2 c.hook
    exact ⟨_, map_eq_ok_iff.2 ⟨bs, hw, rfl⟩, hr⟩
  | deleteChain c =>
    obtain ⟨bs, hw, hr⟩ := exists_writeChainName h.1 h.2
    exact ⟨_, map_eq_ok_iff.2 ⟨bs, hw, rfl⟩, hr⟩
  | flushChain c =>
    obtain ⟨bs, hw, hr⟩ := exists_writeRuleScope h.1 h.2
    exact ⟨_, map_eq_ok_iff.2 ⟨bs, hw, rfl⟩, hr⟩
  | addRule r =>
    obtain ⟨hexprs, ht, hf⟩ := h
    obtain ⟨list, hl⟩ := exists_writeExprs fun e he => (hexprs e he).1
    have hw := writeRule_eq_ok_iff.2 ⟨ht, list, hl, rfl⟩
    exact ⟨_, map_eq_ok_iff.2 ⟨_, hw, rfl⟩, readRule_writeRule (fun e he => (hexprs e he).2) hf hw⟩

end Edit

namespace Wire

/-- What stands in for an edit in a batch: the messages between the markers. -/
def editPayloads (messages : List Message) : List Bytes :=
  ((messages.map Message.payload).drop 1).dropLast

theorem map_payload_number (seq : Nat → UInt32) (messages : List Message) :
    (number seq messages).map Message.payload = messages.map Message.payload := by
  refine List.ext_getElem ?_ fun i _ _ => ?_
  · simp [number]
  · simp [number]

theorem exists_mapM_writeEdit {b : Batch} (h : ∀ e ∈ b, e.Expressible) :
    ∃ ms, b.mapM writeEdit = .ok ms ∧
      List.Forall₂ (fun e m => e.ReadsBack m.payload) b ms := by
  obtain ⟨ms, hms⟩ := exists_forall₂_iff.2 fun e he => (h e he).exists_writeEdit
  exact ⟨ms, mapM_eq_ok_iff.2 (hms.imp fun _ _ h => h.1), hms.imp fun _ _ h => h.2⟩

theorem exists_batchMessages {b : Batch} (h : ∀ e ∈ b, e.Expressible) (seq : Nat → UInt32) :
    ∃ ms, batchMessages seq b = .ok ms ∧
      List.Forall₂ (fun e p => e.ReadsBack p) b (editPayloads ms) := by
  obtain ⟨edits, hedits, hread⟩ := exists_mapM_writeEdit h
  refine ⟨_, by rw [batchMessages, hedits]; rfl, ?_⟩
  rw [editPayloads, map_payload_number]
  simpa using hread

end Wire

end FlowTally
