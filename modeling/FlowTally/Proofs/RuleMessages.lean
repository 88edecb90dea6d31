import FlowTally.Proofs.Userdata
import FlowTally.Wire.Object
import Mathlib.Algebra.GroupWithZero.Nat
/-!
# Rules on the wire and back

A rule whose attributes all fit (`Rule.Fits`) is read from its message as it was, but for its
handle, which a message to the kernel does not carry. More attributes may follow, as they do when
the kernel tells the handle (`Wire.absorb_ruleBody`). Each expression is read from its own
attributes, in front of whatever comes next (`Wire.readExprs_writeExprs`).
-/

namespace FlowTally

namespace Expr

/-- The numbered parts that have a name go by it. -/
def Canonical : Expr → Prop
  | metadata key _ => key.Canonical
  | payload base _ _ _ => base.Canonical
  | compare _ op _ => op.Canonical
  | bitwise .. | counter .. | other _ => True

/-- More than the name is known, so that the expression can be written. -/
def Writable : Expr → Prop
  | other _ => False
  | metadata .. | payload .. | compare .. | bitwise .. | counter .. => True

/-- The byte strings that an expression works with. -/
def operands : Expr → List Bytes
  | compare _ _ data => [data]
  | bitwise _ _ _ mask xor => [mask, xor]
  | metadata .. | payload .. | counter .. | other _ => []

end Expr

namespace Wire

/-! ## Writing expressions -/

theorem writable_of_exprBody {e : Expr} {body : Bytes} (h : exprBody e = .ok body) :
    e.Writable := by
  cases e with
  | other => cases h
  | _ => trivial

theorem nul_not_mem_name {e : Expr} (h : e.Writable) : '\x00' ∉ e.name.toList := by
  cases e with
  | metadata => exact (by decide : '\x00' ∉ "meta".toList)
  | payload => exact (by decide : '\x00' ∉ "payload".toList)
  | compare => exact (by decide : '\x00' ∉ "cmp".toList)
  | bitwise => exact (by decide : '\x00' ∉ "bitwise".toList)
  | counter => exact (by decide : '\x00' ∉ "counter".toList)
  | other => exact h.elim

theorem writeExpr_eq_ok_iff {e : Expr} {bs : Bytes} : writeExpr e = .ok bs ↔
    ∃ body, exprBody e = .ok body ∧
      bs = attr ExprAttr.name (terminated e.name) ++ nested ExprAttr.data body := by
  simp only [writeExpr, bind_eq_ok_iff, pure_eq_ok_iff, string_eq_ok_iff]
  constructor
  · rintro ⟨name, ⟨-, rfl⟩, body, hb, rfl⟩
    exact ⟨body, hb, rfl⟩
  · rintro ⟨body, hb, rfl⟩
    exact ⟨_, ⟨nul_not_mem_name (writable_of_exprBody hb), rfl⟩, body, hb, rfl⟩

theorem exists_writeExpr {e : Expr} (h : e.Writable) : ∃ bs, writeExpr e = .ok bs := by
  have hb : ∃ body, exprBody e = .ok body := by
    cases e with
    | other => exact h.elim
    | _ => exact ⟨_, rfl⟩
  obtain ⟨body, hb⟩ := hb
  exact ⟨_, writeExpr_eq_ok_iff.2 ⟨body, hb, rfl⟩⟩

theorem writeExprs_nil : writeExprs [] = .ok [] := rfl

theorem writeExprs_cons_eq_ok_iff {e : Expr} {es : List Expr} {bs : Bytes} :
    writeExprs (e :: es) = .ok bs ↔ ∃ a rest, writeExpr e = .ok a ∧ writeExprs es = .ok rest ∧
      bs = nested ListAttr.elem a ++ rest := by
  simp only [writeExprs, List.mapM_cons, bind_eq_ok_iff, pure_eq_ok_iff, map_eq_ok_iff]
  constructor
  · rintro ⟨items, ⟨_, ⟨a, ha, rfl⟩, rest, hrest, rfl⟩, rfl⟩
    exact ⟨a, rest.flatten, ha, ⟨rest, hrest, rfl⟩, rfl⟩
  · rintro ⟨a, _, ha, ⟨rest, hrest, rfl⟩, rfl⟩
    exact ⟨_, ⟨_, ⟨a, ha, rfl⟩, rest, hrest, rfl⟩, rfl⟩

theorem exists_writeExprs {es : List Expr} (h : ∀ e ∈ es, e.Writable) :
    ∃ bs, writeExprs es = .ok bs := by
  induction es with
  | nil => exact ⟨_, writeExprs_nil⟩
  | cons e es ih =>
    obtain ⟨a, ha⟩ := exists_writeExpr (h e List.mem_cons_self)
    obtain ⟨rest, hrest⟩ := ih fun x hx => h x (List.mem_cons_of_mem e hx)
    exact ⟨_, writeExprs_cons_eq_ok_iff.2 ⟨a, rest, ha, hrest, rfl⟩⟩

/-! ## How long they get -/

/-- How many bytes the attributes of an expression fill. -/
def exprLength : Expr → Nat
  | .metadata .. => 32
  | .payload .. => 48
  | .compare _ _ data => 36 + padded data.length
  | .bitwise _ _ _ mask xor => 56 + padded mask.length + padded xor.length
  | .counter .. => 40
  | .other _ => 0

theorem length_nat32 (kind : UInt16) (n : UInt32) : (nat32 kind n).length = 8 := by
  simp [nat32, padded, padding]

theorem length_nat64 (kind : UInt16) (n : UInt64) : (nat64 kind n).length = 12 := by
  simp [nat64, padded, padding]

theorem length_dataValue (kind : UInt16) (data : Bytes) :
    (dataValue kind data).length = 8 + padded data.length := by
  have h := dvd_padded data.length
  rw [dataValue, length_nested, length_attr, padded_of_dvd (by omega)]
  omega

theorem length_writeExpr {e : Expr} {bs : Bytes} (h : writeExpr e = .ok bs) :
    bs.length = exprLength e := by
  obtain ⟨body, hb, rfl⟩ := writeExpr_eq_ok_iff.1 h
  rw [List.length_append, length_nested]
  cases e with
  | metadata key target =>
    cases hb
    have hn : (attr ExprAttr.name (terminated "meta")).length = 12 := by decide
    simp only [List.length_append, length_nat32, Expr.name, hn, exprLength]
    rfl
  | payload base offset length target =>
    cases hb
    have hn : (attr ExprAttr.name (terminated "payload")).length = 12 := by decide
    simp only [List.length_append, length_nat32, Expr.name, hn, exprLength]
    rfl
  | compare source op data =>
    cases hb
    have hn : (attr ExprAttr.name (terminated "cmp")).length = 8 := by decide
    have hd := dvd_padded data.length
    simp only [List.length_append, length_nat32, length_dataValue, Expr.name, hn, exprLength]
    rw [padded_of_dvd (by omega)]
    omega
  | bitwise source target length mask xor =>
    cases hb
    have hn : (attr ExprAttr.name (terminated "bitwise")).length = 12 := by decide
    have hm := dvd_padded mask.length
    have hx := dvd_padded xor.length
    simp only [List.length_append, length_nat32, length_dataValue, Expr.name, hn, exprLength]
    rw [padded_of_dvd (by omega)]
    omega
  | counter packets bytes =>
    cases hb
    have hn : (attr ExprAttr.name (terminated "counter")).length = 12 := by decide
    simp only [List.length_append, length_nat64, Expr.name, hn, exprLength]
    rfl
  | other name => cases hb

theorem dvd_exprLength (e : Expr) : 4 ∣ exprLength e := by
  cases e with
  | compare source op data => exact Nat.dvd_add (by decide) (dvd_padded _)
  | bitwise source target length mask xor =>
    exact Nat.dvd_add (Nat.dvd_add (by decide) (dvd_padded _)) (dvd_padded _)
  | _ => simp [exprLength]

/-- How many bytes a list of expressions fills. -/
def exprsLength (es : List Expr) : Nat := (es.map fun e => 4 + exprLength e).sum

theorem length_writeExprs {es : List Expr} : ∀ {bs : Bytes}, writeExprs es = .ok bs →
    bs.length = exprsLength es := by
  induction es with
  | nil =>
    intro bs h
    cases h
    rfl
  | cons e es ih =>
    intro bs h
    obtain ⟨a, rest, ha, hrest, rfl⟩ := writeExprs_cons_eq_ok_iff.1 h
    rw [List.length_append, length_nested, length_writeExpr ha,
      padded_of_dvd (dvd_exprLength e), ih hrest]
    rfl

/-! ## Reading expressions -/

/-- The attributes of an expression in the order in which they are written. -/
def exprItems : Expr → List Attribute
  | .metadata key target =>
    [⟨MetadataAttr.target, Bytes.ofNatBE 4 target.number.toNat⟩,
     ⟨MetadataAttr.key, Bytes.ofNatBE 4 key.raw.toNat⟩]
  | .payload base offset length target =>
    [⟨PayloadAttr.target, Bytes.ofNatBE 4 target.number.toNat⟩,
     ⟨PayloadAttr.base, Bytes.ofNatBE 4 base.raw.toNat⟩,
     ⟨PayloadAttr.offset, Bytes.ofNatBE 4 offset.toNat⟩,
     ⟨PayloadAttr.length, Bytes.ofNatBE 4 length.toNat⟩]
  | .compare source op data =>
    [⟨CompareAttr.source, Bytes.ofNatBE 4 source.number.toNat⟩,
     ⟨CompareAttr.op, Bytes.ofNatBE 4 op.raw.toNat⟩,
     ⟨CompareAttr.data, attr DataAttr.value data⟩]
  | .bitwise source target length mask xor =>
    [⟨BitwiseAttr.source, Bytes.ofNatBE 4 source.number.toNat⟩,
     ⟨BitwiseAttr.target, Bytes.ofNatBE 4 target.number.toNat⟩,
     ⟨BitwiseAttr.length, Bytes.ofNatBE 4 length.toNat⟩,
     ⟨BitwiseAttr.mask, attr DataAttr.value mask⟩,
     ⟨BitwiseAttr.xor, attr DataAttr.value xor⟩]
  | .counter packets bytes =>
    [⟨CounterAttr.bytes, Bytes.ofNatBE 8 bytes.toNat⟩,
     ⟨CounterAttr.packets, Bytes.ofNatBE 8 packets.toNat⟩]
  | .other _ => []

/-- What an expression works with takes less room than its body. -/
theorem fits_of_mem_operands {e : Expr} {body data : Bytes} (h : exprBody e = .ok body)
    (hf : Fits body) (hd : data ∈ e.operands) : Fits (attr DataAttr.value data) := by
  refine hf.of_length_le ?_
  cases e with
  | compare source op d =>
    cases h
    simp only [Expr.operands, List.mem_singleton] at hd
    subst hd
    simp only [List.length_append, length_nat32, length_dataValue, length_attr]
    omega
  | bitwise source target length mask xor =>
    cases h
    simp only [Expr.operands, List.mem_cons, List.not_mem_nil, or_false] at hd
    simp only [List.length_append, length_nat32, length_dataValue, length_attr]
    rcases hd with rfl | rfl <;> omega
  | _ => cases hd

theorem attributes_exprBody {e : Expr} {body : Bytes} (h : exprBody e = .ok body)
    (hf : Fits body) : attributes body = (exprItems e).map .ok := by
  have hd : ∀ data ∈ e.operands, Fits (attr DataAttr.value data) := fun _ =>
    fits_of_mem_operands h hf
  rw [← List.append_nil body]
  cases e with
  | metadata key target =>
    cases h
    simp (disch := decide) only [List.append_assoc, attributes_nat32, attributes_nil]
    rfl
  | payload base offset length target =>
    cases h
    simp (disch := decide) only [List.append_assoc, attributes_nat32, attributes_nil]
    rfl
  | compare source op data =>
    cases h
    have hdata := hd data (by simp [Expr.operands])
    simp (disch := first | decide | assumption) only [List.append_assoc, attributes_nat32,
      dataValue, attributes_nested, attributes_nil]
    rfl
  | bitwise source target length mask xor =>
    cases h
    have hmask := hd mask (by simp [Expr.operands])
    have hxor := hd xor (by simp [Expr.operands])
    simp (disch := first | decide | assumption) only [List.append_assoc, attributes_nat32,
      dataValue, attributes_nested, attributes_nil]
    rfl
  | counter packets bytes =>
    cases h
    simp (disch := decide) only [List.append_assoc, attributes_nat64, attributes_nil]
    rfl
  | other name => cases h

theorem firstOf_value {data : Bytes} (h : Fits (attr DataAttr.value data)) :
    firstOf DataAttr.value (attributes (attr DataAttr.value data)) = .ok (some data) := by
  have hf : Fits data := h.of_length_le (by rw [length_attr, padded]; omega)
  have ha := attributes_attr (by decide : DataAttr.value < 0x4000) hf []
  rw [List.append_nil] at ha
  rw [ha]
  rfl

theorem exprOfFields_exprItems {e : Expr} (hw : e.Writable) (hc : e.Canonical)
    (hf : ∀ data ∈ e.operands, Fits (attr DataAttr.value data)) :
    exprOfFields ⟨e.name, exprItems e⟩ = .ok e := by
  cases e with
  | metadata key target =>
    have hkey : MetaKey.ofRaw key.raw = key := hc
    simp [exprOfFields, Expr.name, exprItems, ExprFields.find?, ExprFields.nat32,
      ExprFields.register, MetadataAttr.target, MetadataAttr.key, bind, Except.bind, pure,
      Except.pure, Except.map, hkey]
  | payload base offset length target =>
    have hbase : HeaderBase.ofRaw base.raw = base := hc
    simp [exprOfFields, Expr.name, exprItems, ExprFields.find?, ExprFields.nat32,
      ExprFields.register, PayloadAttr.target, PayloadAttr.base, PayloadAttr.offset,
      PayloadAttr.length, bind, Except.bind, pure, Except.pure, Except.map, hbase]
  | compare source op data =>
    have hop : CompareOp.ofRaw op.raw = op := hc
    have hdata := firstOf_value (hf data (by simp [Expr.operands]))
    simp [exprOfFields, Expr.name, exprItems, ExprFields.find?, ExprFields.nat32,
      ExprFields.register, ExprFields.value, CompareAttr.source, CompareAttr.op, CompareAttr.data,
      bind, Except.bind, pure, Except.pure, Except.map, hop, hdata]
  | bitwise source target length mask xor =>
    have hmask := firstOf_value (hf mask (by simp [Expr.operands]))
    have hxor := firstOf_value (hf xor (by simp [Expr.operands]))
    simp [exprOfFields, Expr.name, exprItems, ExprFields.find?, ExprFields.nat32,
      ExprFields.register, ExprFields.value, BitwiseAttr.source, BitwiseAttr.target,
      BitwiseAttr.length, BitwiseAttr.mask, BitwiseAttr.xor, BitwiseAttr.op, bind, Except.bind,
      pure, Except.pure, Except.map, hmask, hxor]
  | counter packets bytes =>
    simp [exprOfFields, Expr.name, exprItems, ExprFields.find?, ExprFields.nat64,
      CounterAttr.packets, CounterAttr.bytes, bind, Except.bind, pure, Except.pure]
  | other name => exact hw.elim

theorem mapM_id_ok {α ε : Type} (as : List α) :
    (as.map (.ok : α → Except ε α)).mapM id = .ok as := by
  induction as with
  | nil => rfl
  | cons a as ih => rw [List.map_cons, List.mapM_cons, ih]; rfl

theorem readExpr_writeExpr {e : Expr} {bs : Bytes} (hc : e.Canonical) (h : writeExpr e = .ok bs)
    (hf : Fits bs) : readExpr bs = .ok e := by
  obtain ⟨body, hb, rfl⟩ := writeExpr_eq_ok_iff.1 h
  have hw := writable_of_exprBody hb
  have hname : Fits (terminated e.name) := hf.of_length_le (by
    rw [List.length_append, length_attr, padded]
    omega)
  have hbody : Fits body := hf.of_length_le (by
    rw [List.length_append, length_nested, padded]
    omega)
  have hread : absorb ExprDraft.absorb {} (attr ExprAttr.name (terminated e.name) ++
      nested ExprAttr.data body) = .ok ⟨some e.name, body⟩ := by
    rw [← List.append_nil (nested _ _), absorb_attr _ _ (by decide) hname]
    simp only [ExprDraft.absorb, if_true, readString_terminated (nul_not_mem_name hw)]
    simp only [Except.map, Except.bind]
    rw [absorb_nested _ _ (by decide) hbody]
    exact absorb_nil _ _
  have hitems := attributes_exprBody hb hbody
  have he := exprOfFields_exprItems hw hc fun data hd => fits_of_mem_operands hb hbody hd
  simp only [readExpr, hread, bind, Except.bind, hitems, mapM_id_ok, he]

/-- Expressions are read behind those that came before. -/
theorem readExprs_writeExprs {es : List Expr} : ∀ {bs : Bytes}, (∀ e ∈ es, e.Canonical) →
    writeExprs es = .ok bs → Fits bs → ∀ before, readExprs before bs = .ok (before ++ es) := by
  induction es with
  | nil =>
    intro bs _ h _ before
    cases h
    simp [readExprs]
  | cons e es ih =>
    intro bs hc h hf before
    obtain ⟨a, rest, ha, hrest, rfl⟩ := writeExprs_cons_eq_ok_iff.1 h
    have hfa : Fits a := hf.of_length_le (by rw [List.length_append, length_nested, padded]; omega)
    have hfr : Fits rest := hf.of_length_le (by rw [List.length_append]; omega)
    have he := readExpr_writeExpr (hc e List.mem_cons_self) ha hfa
    have hes := ih (fun x hx => hc x (List.mem_cons_of_mem e hx)) hrest hfr (before ++ [e])
    rw [readExprs, absorb_nested _ _ (by decide) hfa, if_pos rfl, he]
    rw [List.append_assoc] at hes
    exact hes

/-! ## Rules -/

/-- The attribute of a comment, if there is one. -/
def commentAttr : Option String → Bytes
  | none => []
  | some c => attr RuleAttr.userdata (commentEntry c)

/-- The attributes of a rule whose expressions are written as `list`. -/
def ruleBody (r : Rule) (list : Bytes) : Bytes :=
  attr RuleAttr.table (terminated r.table.name) ++ (attr RuleAttr.chain (terminated r.chain) ++
    (nested RuleAttr.exprs list ++ commentAttr r.comment))

end Wire

/-- The strings of a rule are such that none is cut short. -/
structure Rule.Terminable (r : Rule) : Prop where
  table : '\x00' ∉ r.table.name.toList
  chain : '\x00' ∉ r.chain.toList
  comment : ∀ c ∈ r.comment, c.utf8ByteSize ≤ maxCommentBytes ∧ '\x00' ∉ c.toList

namespace Wire

theorem writeRuleScope_eq_ok_iff {t : Table} {chain : String} {bs : Bytes} :
    writeRuleScope t (some chain) = .ok bs ↔ '\x00' ∉ t.name.toList ∧ '\x00' ∉ chain.toList ∧
      bs = header t.family.number 0 ++ (attr RuleAttr.table (terminated t.name) ++
        attr RuleAttr.chain (terminated chain)) := by
  simp only [writeRuleScope, bind_eq_ok_iff, pure_eq_ok_iff, string_eq_ok_iff]
  constructor
  · rintro ⟨_, ⟨ht, rfl⟩, _, ⟨hc, rfl⟩, rfl⟩
    exact ⟨ht, hc, List.append_assoc ..⟩
  · rintro ⟨ht, hc, rfl⟩
    exact ⟨_, ⟨ht, rfl⟩, _, ⟨hc, rfl⟩, List.append_assoc ..⟩

theorem writeRule_eq_ok_iff {r : Rule} {bs : Bytes} : writeRule r = .ok bs ↔
    r.Terminable ∧ ∃ list, writeExprs r.exprs = .ok list ∧
      bs = header r.table.family.number 0 ++ ruleBody r list := by
  obtain ⟨table, chain, handle, exprs, comment⟩ := r
  cases comment with
  | none =>
    simp only [writeRule, bind_eq_ok_iff, pure_eq_ok_iff, writeRuleScope_eq_ok_iff]
    constructor
    · rintro ⟨_, ⟨ht, hc, rfl⟩, list, hl, _, rfl, rfl⟩
      refine ⟨⟨ht, hc, by simp⟩, list, hl, ?_⟩
      simp [ruleBody, commentAttr]
    · rintro ⟨h, list, hl, rfl⟩
      refine ⟨_, ⟨h.table, h.chain, rfl⟩, list, hl, _, rfl, ?_⟩
      simp [ruleBody, commentAttr]
  | some c =>
    simp only [writeRule, bind_eq_ok_iff, pure_eq_ok_iff, map_eq_ok_iff, writeRuleScope_eq_ok_iff,
      userdata_eq_ok_iff]
    constructor
    · rintro ⟨_, ⟨ht, hc, rfl⟩, list, hl, _, ⟨_, ⟨hlen, hz, rfl⟩, rfl⟩, rfl⟩
      refine ⟨⟨ht, hc, by simpa using ⟨hlen, hz⟩⟩, list, hl, ?_⟩
      simp [ruleBody, commentAttr]
    · rintro ⟨h, list, hl, rfl⟩
      obtain ⟨hlen, hz⟩ := h.comment c rfl
      refine ⟨_, ⟨h.table, h.chain, rfl⟩, list, hl, _, ⟨_, ⟨hlen, hz, rfl⟩, rfl⟩, ?_⟩
      simp [ruleBody, commentAttr]

theorem readHeader_header (f : Family) (body : Bytes) :
    readHeader (header f.number 0 ++ body) = .ok (f, body) := by
  have hbytes : header f.number 0 ++ body = f.number :: 0 :: 0 :: 0 :: body := rfl
  rw [hbytes]
  simp only [readHeader, Family.ofNumber?_number]

end Wire

/-- The attributes of the rule's message fit. Those inside others are shorter than them, and that of
the comment always fits. -/
structure Rule.Fits (r : Rule) : Prop where
  table : Wire.Fits (Wire.terminated r.table.name)
  chain : Wire.Fits (Wire.terminated r.chain)
  exprs : ∀ list, Wire.writeExprs r.exprs = .ok list → Wire.Fits list

namespace Wire

namespace RuleDraft

variable (s : RuleDraft) (data : Bytes)

theorem absorb_table : s.absorb ⟨RuleAttr.table, data⟩ =
    (readString data).map fun t => { s with table := some t } := rfl

theorem absorb_chain : s.absorb ⟨RuleAttr.chain, data⟩ =
    (readString data).map fun c => { s with chain := some c } := rfl

theorem absorb_handle : s.absorb ⟨RuleAttr.handle, data⟩ =
    (readNat64 data).map fun h => { s with handle := some h } := rfl

theorem absorb_exprs : s.absorb ⟨RuleAttr.exprs, data⟩ =
    (readExprs s.exprs data).map fun es => { s with exprs := es } := rfl

theorem absorb_userdata : s.absorb ⟨RuleAttr.userdata, data⟩ =
    .ok { s with comment := readComment data } := rfl

end RuleDraft

theorem absorb_commentAttr {s : RuleDraft} (hs : s.comment = none) {comment : Option String}
    (h : ∀ c ∈ comment, c.utf8ByteSize ≤ maxCommentBytes ∧ '\x00' ∉ c.toList) (rest : Bytes) :
    absorb RuleDraft.absorb s (commentAttr comment ++ rest) =
      absorb RuleDraft.absorb { s with comment } rest := by
  cases comment with
  | none =>
    cases s
    subst hs
    rfl
  | some c =>
    obtain ⟨hl, hz⟩ := h c rfl
    have hread : readComment (commentEntry c) = some c := by
      simpa using readComment_commentEntry hl hz []
    rw [commentAttr, absorb_attr _ _ (by decide) (fits_commentEntry hl),
      RuleDraft.absorb_userdata, hread]
    rfl

theorem absorb_handleAttr (s : RuleDraft) (n : UInt64) (rest : Bytes) :
    absorb RuleDraft.absorb s (nat64 RuleAttr.handle n ++ rest) =
      absorb RuleDraft.absorb { s with handle := some n } rest := by
  rw [nat64, absorb_attr _ _ (by decide) (fits_ofNatBE_eight _), RuleDraft.absorb_handle,
    readNat64_ofNatBE]
  rfl

/-- The names that a rule's message starts with. -/
theorem absorb_ruleNames {table chain : String} (ht : '\x00' ∉ table.toList)
    (hft : Fits (terminated table)) (hc : '\x00' ∉ chain.toList) (hfc : Fits (terminated chain))
    (rest : Bytes) :
    absorb RuleDraft.absorb {} (attr RuleAttr.table (terminated table) ++
        (attr RuleAttr.chain (terminated chain) ++ rest)) =
      absorb RuleDraft.absorb ⟨table, chain, none, [], none⟩ rest := by
  rw [absorb_attr _ _ (by decide) hft, RuleDraft.absorb_table, readString_terminated ht]
  simp only [Except.map, Except.bind]
  rw [absorb_attr _ _ (by decide) hfc, RuleDraft.absorb_chain, readString_terminated hc]
  rfl

section Rules
variable {r : Rule} {list : Bytes} (hc : ∀ e ∈ r.exprs, e.Canonical) (ht : r.Terminable)
  (hf : r.Fits) (hl : writeExprs r.exprs = .ok list)
include hc ht hf hl

/-- The expressions and the comment of a rule are read behind whatever else has been read. -/
theorem absorb_ruleContent {s : RuleDraft} (hs : s.exprs = []) (hn : s.comment = none)
    (rest : Bytes) :
    absorb RuleDraft.absorb s (nested RuleAttr.exprs list ++ (commentAttr r.comment ++ rest)) =
      absorb RuleDraft.absorb { s with exprs := r.exprs, comment := r.comment } rest := by
  have hlist : Fits list := hf.exprs list hl
  rw [absorb_nested _ _ (by decide) hlist, RuleDraft.absorb_exprs, hs,
    readExprs_writeExprs hc hl hlist]
  simp only [Except.map, Except.bind]
  have hcomment : ({ s with exprs := r.exprs } : RuleDraft).comment = none := hn
  exact absorb_commentAttr hcomment ht.comment rest

/-- The attributes of a rule are read with whatever follows them. -/
theorem absorb_ruleBody (rest : Bytes) :
    absorb RuleDraft.absorb {} (ruleBody r list ++ rest) =
      absorb RuleDraft.absorb ⟨r.table.name, r.chain, none, r.exprs, r.comment⟩ rest := by
  simp only [ruleBody, List.append_assoc]
  rw [absorb_ruleNames ht.table hf.table ht.chain hf.chain]
  exact absorb_ruleContent hc ht hf hl rfl rfl rest

/-- A rule is read from its attributes and a handle behind them, if there is one. -/
theorem readRule_ruleBody (h : Option UInt64) :
    readRule (header r.table.family.number 0 ++ (ruleBody r list ++
      (h.map (nat64 RuleAttr.handle)).getD [])) = .ok { r with handle := h } := by
  have hread := absorb_ruleBody hc ht hf hl ((h.map (nat64 RuleAttr.handle)).getD [])
  rw [readRule, readHeader_header]
  simp only [bind, Except.bind]
  rw [hread]
  cases h with
  | none =>
    rw [Option.map_none, Option.getD_none, absorb_nil]
    rfl
  | some n =>
    rw [Option.map_some, Option.getD_some, ← List.append_nil (nat64 _ _), absorb_handleAttr,
      absorb_nil]
    rfl

/-- A rule is also read if its handle stands behind the names. -/
theorem readRule_handle_between (n : UInt64) :
    readRule (header r.table.family.number 0 ++ (attr RuleAttr.table (terminated r.table.name) ++
      (attr RuleAttr.chain (terminated r.chain) ++ (nat64 RuleAttr.handle n ++
        (nested RuleAttr.exprs list ++ commentAttr r.comment))))) =
      .ok { r with handle := some n } := by
  rw [readRule, readHeader_header]
  simp only [bind, Except.bind]
  rw [absorb_ruleNames ht.table hf.table ht.chain hf.chain, absorb_handleAttr,
    ← List.append_nil (commentAttr _), absorb_ruleContent hc ht hf hl rfl rfl, absorb_nil]
  rfl

end Rules

/-- A rule that can be written is read from its message again. -/
theorem readRule_writeRule {r : Rule} {bs : Bytes} (hc : ∀ e ∈ r.exprs, e.Canonical)
    (hf : r.Fits) (h : writeRule r = .ok bs) : readRule bs = .ok r.withoutHandle := by
  obtain ⟨ht, list, hl, rfl⟩ := writeRule_eq_ok_iff.1 h
  have hread := readRule_ruleBody hc ht hf hl none
  rw [Option.map_none, Option.getD_none, List.append_nil] at hread
  exact hread

end Wire

open Wire in
/-- A rule that can be written has a message from which it is read, and read with a handle if one
comes behind it. -/
theorem Rule.exists_message {r : Rule} (hw : ∀ e ∈ r.exprs, e.Writable ∧ e.Canonical)
    (ht : r.Terminable) (hf : r.Fits) :
    ∃ payload, writeRule r = .ok payload ∧ readRule payload = .ok r.withoutHandle ∧
      ∀ h : UInt64, readRule (payload ++ nat64 RuleAttr.handle h) =
        .ok { r with handle := some h } := by
  have hc : ∀ e ∈ r.exprs, e.Canonical := fun e he => (hw e he).2
  obtain ⟨list, hl⟩ := exists_writeExprs fun e he => (hw e he).1
  have hwrite := writeRule_eq_ok_iff.2 ⟨ht, list, hl, rfl⟩
  refine ⟨_, hwrite, readRule_writeRule hc hf hwrite, fun h => ?_⟩
  rw [List.append_assoc]
  exact readRule_ruleBody hc ht hf hl (some h)

/-- An expression of every kind that can be written, and a comment that says nothing. -/
def patchwork : Rule where
  table := ⟨.inet, "flow"⟩
  chain := "in"
  handle := some 7
  exprs := [.metadata (.other 7) ⟨1⟩, .payload .transport 13 1 ⟨1⟩,
    .bitwise ⟨1⟩ ⟨2⟩ 1 [0x17] [0], .compare ⟨2⟩ (.other 1) [2, 0, 9],
    .counter 0xffffffffffffffff 60]
  comment := some ""

open Wire in
theorem Rule.exists_message_patchwork :
    (∀ e ∈ patchwork.exprs, e.Writable ∧ e.Canonical) ∧ patchwork.Terminable ∧ patchwork.Fits ∧
      ∃ payload, writeRule patchwork = .ok payload ∧
        readRule payload = .ok patchwork.withoutHandle ∧
        ∀ h : UInt64, readRule (payload ++ nat64 RuleAttr.handle h) =
          .ok { patchwork with handle := some h } := by
  have hw : ∀ e ∈ patchwork.exprs, e.Writable ∧ e.Canonical := by
    simp [patchwork, Expr.Writable, Expr.Canonical, MetaKey.Canonical, HeaderBase.Canonical,
      CompareOp.Canonical]
    decide
  have ht : patchwork.Terminable := ⟨by decide, by decide, by decide⟩
  have hf : patchwork.Fits := by
    refine ⟨by decide, by decide, fun list hl => ?_⟩
    rw [Wire.Fits, length_writeExprs hl]
    decide
  exact ⟨hw, ht, hf, Rule.exists_message hw ht hf⟩

end FlowTally
