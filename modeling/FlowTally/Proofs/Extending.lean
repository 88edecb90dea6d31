import FlowTally.Proofs.RuleMessages
import Mathlib.Logic.Relation
/-!
# Messages that say more

A reader goes by the kinds of attributes that it knows. To a message that it can read more may be
added at every level, marks may be set or not, and the attributes of a rule may come in another
order (`Wire.RuleChange`); it still reads the same rule (`Wire.readRule_of_changes`).
-/

namespace FlowTally

namespace Wire

/-! ## Attributes as they lie in a buffer -/

/-- An attribute with the marks on its kind and the bytes behind it that fill up to four. -/
structure Chunk where
  mark : UInt16
  data : Bytes
  pad : Bytes
  fits : Fits data
  length_pad : pad.length = padding data.length

namespace Chunk

def kind (c : Chunk) : UInt16 := unmarked c.mark

def bytes (c : Chunk) : Bytes :=
  Bytes.ofNatLE 2 (4 + c.data.length) ++ Bytes.ofNatLE 2 c.mark.toNat ++ c.data ++ c.pad

theorem attributes_bytes_append (c : Chunk) (rest : Bytes) :
    attributes (c.bytes ++ rest) = .ok ⟨c.kind, c.data⟩ :: attributes rest := by
  have hl : (4 + c.data.length) % 0x10000 = 4 + c.data.length := Nat.mod_eq_of_lt c.fits
  rw [bytes, List.append_assoc, List.append_assoc, attributes_head, hl, if_neg (by simp),
    Nat.add_sub_cancel_left, padding_four_add, ← List.drop_drop, List.drop_left,
    List.drop_left' c.length_pad, List.take_left]
  rfl

end Chunk

/-- The second buffer is the first with attributes of kinds that are not `used` put in, marks set or
not, and the data of kinds that are used changed by `inner`, that of the others in any way. -/
inductive Extends (used : List UInt16) (inner : UInt16 → Bytes → Bytes → Prop) :
    Bytes → Bytes → Prop where
  | refl (buf : Bytes) : Extends used inner buf buf
  | keep {c c' : Chunk} {rest rest' : Bytes} (hk : c'.kind = c.kind)
    (hd : c.kind ∈ used → inner c.kind c.data c'.data) (h : Extends used inner rest rest') :
    Extends used inner (c.bytes ++ rest) (c'.bytes ++ rest')
  | insert {c : Chunk} {buf buf' : Bytes} (hk : c.kind ∉ used) (h : Extends used inner buf buf') :
    Extends used inner buf (c.bytes ++ buf')

/-! ## Reading one after the other -/

section Absorb
variable {σ : Type} {step : σ → Attribute → Except WireError σ} {R : σ → σ → Prop}
  (hsame : ∀ {s s' t : σ} {a : Attribute}, R s s' → step s a = .ok t →
    ∃ t', step s' a = .ok t' ∧ R t t')
include hsame

theorem absorb_related {buf : Bytes} {s s' t : σ} (hs : R s s') (h : absorb step s buf = .ok t) :
    ∃ t', absorb step s' buf = .ok t' ∧ R t t' := by
  unfold absorb at h ⊢
  generalize attributes buf = items at h ⊢
  induction items generalizing s s' with
  | nil =>
    cases h
    exact ⟨s', rfl, hs⟩
  | cons item items ih =>
    rw [List.foldlM_cons, bind_eq_ok_iff] at h
    obtain ⟨s₁, h₁, h₂⟩ := h
    cases item with
    | error e => cases h₁
    | ok a =>
      obtain ⟨s₁', h₁', hs₁⟩ := hsame hs h₁
      obtain ⟨t', h₂', ht⟩ := ih hs₁ h₂
      exact ⟨t', by rw [List.foldlM_cons, bind_eq_ok_iff]; exact ⟨s₁', h₁', h₂'⟩, ht⟩

theorem Extends.absorb {used : List UInt16} {inner : UInt16 → Bytes → Bytes → Prop}
    (hkeep : ∀ {s s' t : σ} {k : UInt16} {data data' : Bytes}, k ∈ used → inner k data data' →
      R s s' → step s ⟨k, data⟩ = .ok t → ∃ t', step s' ⟨k, data'⟩ = .ok t' ∧ R t t')
    (hskip : ∀ (s : σ) {a : Attribute}, a.kind ∉ used → step s a = .ok s)
    {buf buf' : Bytes} (h : Extends used inner buf buf') : ∀ {s s' t : σ}, R s s' →
      Wire.absorb step s buf = .ok t → ∃ t', Wire.absorb step s' buf' = .ok t' ∧ R t t' := by
  induction h with
  | refl buf => exact absorb_related hsame
  | @keep c c' rest rest' hk hd _ ih =>
    intro s s' t hs hread
    rw [absorb_of_cons _ _ (c.attributes_bytes_append rest)] at hread
    rw [absorb_of_cons _ _ (c'.attributes_bytes_append rest')]
    obtain ⟨s₁, h₁, h₂⟩ := bind_eq_ok_iff.1 hread
    have hnext : ∃ s₁', step s' ⟨c'.kind, c'.data⟩ = .ok s₁' ∧ R s₁ s₁' := by
      rw [hk]
      by_cases hu : c.kind ∈ used
      · exact hkeep hu (hd hu) hs h₁
      · rw [hskip s hu] at h₁
        cases h₁
        exact ⟨s', hskip s' hu, hs⟩
    obtain ⟨s₁', h₁', hs₁⟩ := hnext
    rw [h₁']
    exact ih hs₁ h₂
  | @insert c buf buf' hk _ ih =>
    intro s s' t hs hread
    rw [absorb_of_cons _ _ (c.attributes_bytes_append buf'), hskip s' hk]
    exact ih hs hread

end Absorb

/-- A reader that keeps nothing of the data but what it reads of it. -/
theorem Extends.absorb_eq {σ : Type} {step : σ → Attribute → Except WireError σ}
    {used : List UInt16} {inner : UInt16 → Bytes → Bytes → Prop}
    (hkeep : ∀ {s t : σ} {k : UInt16} {data data' : Bytes}, k ∈ used → inner k data data' →
      step s ⟨k, data⟩ = .ok t → step s ⟨k, data'⟩ = .ok t)
    (hskip : ∀ (s : σ) {a : Attribute}, a.kind ∉ used → step s a = .ok s)
    {buf buf' : Bytes} (h : Extends used inner buf buf') {s t : σ}
    (hread : Wire.absorb step s buf = .ok t) : Wire.absorb step s buf' = .ok t := by
  obtain ⟨t', hread', rfl⟩ := h.absorb (R := Eq) (fun hs ht => ⟨_, hs ▸ ht, rfl⟩)
    (fun hu hd hs ht => ⟨_, hkeep hu hd (hs ▸ ht), rfl⟩) hskip rfl hread
  exact hread'

/-! ## Reading by kind -/

/-- Only the data of the first attribute of the kind matters. -/
theorem Extends.firstOf {kind : UInt16} {data data' : Bytes}
    (h : Extends [kind] (fun _ => Eq) data data') {v : Option Bytes}
    (hread : firstOf kind (attributes data) = .ok v) :
    Wire.firstOf kind (attributes data') = .ok v := by
  induction h with
  | refl => exact hread
  | @keep c c' rest rest' hk hd _ ih =>
    rw [Chunk.attributes_bytes_append, Wire.firstOf] at hread ⊢
    by_cases hc : c.kind = kind
    · have hdata : c.data = c'.data := hd (by simp [hc])
      rw [if_pos (hk.trans hc)]
      rw [if_pos hc] at hread
      exact hdata ▸ hread
    · rw [if_neg (hk ▸ hc)]
      rw [if_neg hc] at hread
      exact ih hread
  | insert hk _ ih =>
    rw [Chunk.attributes_bytes_append, Wire.firstOf, if_neg (by simpa using hk)]
    exact ih hread

theorem mapM_id_eq_ok_iff {ε α : Type} {items : List (Except ε α)} {as : List α} :
    items.mapM id = .ok as ↔ items = as.map .ok := by
  rw [mapM_eq_ok_iff, ← List.forall₂_eq_eq_eq, List.forall₂_map_right_iff]
  rfl

theorem find?_cons (name : String) (a : Attribute) (items : List Attribute) (k : UInt16) :
    ExprFields.find? ⟨name, a :: items⟩ k =
      if a.kind = k then some a.data else ExprFields.find? ⟨name, items⟩ k := by
  unfold ExprFields.find?
  by_cases h : a.kind = k <;> simp [h]

/-- Of the attributes of an expression, the first of each kind matters. -/
theorem Extends.fields {used : List UInt16} {inner : UInt16 → Bytes → Bytes → Prop}
    (hrefl : ∀ k data, inner k data data) (name : String) {body body' : Bytes}
    (h : Extends used inner body body') : ∀ {items : List Attribute},
    attributes body = items.map .ok → ∃ items', attributes body' = items'.map .ok ∧
      ∀ k ∈ used, Option.Rel (inner k) (ExprFields.find? ⟨name, items⟩ k)
        (ExprFields.find? ⟨name, items'⟩ k) := by
  induction h with
  | refl =>
    intro items hread
    refine ⟨items, hread, fun k _ => ?_⟩
    cases ExprFields.find? ⟨name, items⟩ k with
    | none => exact .none
    | some data => exact .some (hrefl k data)
  | @keep c c' rest rest' hk hd _ ih =>
    intro items hread
    rw [Chunk.attributes_bytes_append] at hread
    obtain ⟨a, items, rfl, ha, hrest⟩ := List.map_eq_cons_iff.1 hread.symm
    obtain rfl : a = ⟨c.kind, c.data⟩ := Except.ok.inj ha
    obtain ⟨items', hrest', hfind⟩ := ih hrest.symm
    refine ⟨⟨c'.kind, c'.data⟩ :: items', ?_, fun k hu => ?_⟩
    · rw [Chunk.attributes_bytes_append, hrest', List.map_cons]
    · rw [find?_cons, find?_cons]
      by_cases hc : c.kind = k
      · rw [if_pos hc, if_pos (hk.trans hc)]
        exact .some (hc ▸ hd (hc ▸ hu))
      · rw [if_neg hc, if_neg (fun h => hc (hk ▸ h))]
        exact hfind k hu
  | @insert c buf buf' hk _ ih =>
    intro items hread
    obtain ⟨items', hrest', hfind⟩ := ih hread
    refine ⟨⟨c.kind, c.data⟩ :: items', ?_, fun k hu => ?_⟩
    · rw [Chunk.attributes_bytes_append, hrest', List.map_cons]
    · rw [find?_cons _ _ items', if_neg (fun h : c.kind = k => hk (h ▸ hu))]
      exact hfind k hu

/-! ## Expressions -/

/-- The kinds under which the body of an expression that is read as `e` says a number. -/
def numberKinds : Expr → List UInt16
  | .metadata .. => [MetadataAttr.key, MetadataAttr.target]
  | .payload .. => [PayloadAttr.base, PayloadAttr.offset, PayloadAttr.length, PayloadAttr.target]
  | .compare .. => [CompareAttr.source, CompareAttr.op]
  | .bitwise .. =>
    [BitwiseAttr.op, BitwiseAttr.source, BitwiseAttr.target, BitwiseAttr.length]
  | .counter .. => [CounterAttr.packets, CounterAttr.bytes]
  | .other name => if name = "bitwise" then [BitwiseAttr.op] else []

/-- The kinds under which it has attributes again, one of them with a value. -/
def valueKinds : Expr → List UInt16
  | .compare .. => [CompareAttr.data]
  | .bitwise .. => [BitwiseAttr.mask, BitwiseAttr.xor]
  | .metadata .. | .payload .. | .counter .. | .other _ => []

/-- What the data of an attribute in the body may become. -/
def OperandExtends (e : Expr) (kind : UInt16) : Bytes → Bytes → Prop :=
  if kind ∈ numberKinds e then Eq else Extends [DataAttr.value] fun _ => Eq

def BodyExtends (e : Expr) : Bytes → Bytes → Prop :=
  Extends (numberKinds e ++ valueKinds e) (OperandExtends e)

theorem OperandExtends.refl (e : Expr) (kind : UInt16) (data : Bytes) :
    OperandExtends e kind data data := by
  unfold OperandExtends
  split
  · rfl
  · exact Extends.refl data

/-- A value is read the same of what became of its attribute. -/
theorem value_of_extends {e : Expr} {f f' : ExprFields} {kind : UInt16}
    (h : Option.Rel (OperandExtends e kind) (f.find? kind) (f'.find? kind)) {v : Bytes}
    (hv : f.value kind = .ok v) : f'.value kind = .ok v := by
  unfold ExprFields.value at hv ⊢
  generalize f.find? kind = data, f'.find? kind = data' at h hv ⊢
  cases h with
  | none => exact hv
  | some h =>
    unfold OperandExtends at h
    split at h
    · exact h ▸ hv
    · obtain ⟨first, hfirst, rfl⟩ := map_eq_ok_iff.1 hv
      exact map_eq_ok_iff.2 ⟨first, h.firstOf hfirst, rfl⟩

theorem find?_of_extends {e : Expr} {f f' : ExprFields} {kind : UInt16}
    (hk : kind ∈ numberKinds e)
    (h : Option.Rel (OperandExtends e kind) (f.find? kind) (f'.find? kind)) :
    f'.find? kind = f.find? kind := by
  rw [OperandExtends, if_pos hk] at h
  generalize f.find? kind = data, f'.find? kind = data' at h ⊢
  cases h with
  | some h => rw [h]
  | none => rfl

/-- The expression is the same if what is looked at is. -/
theorem exprOfFields_congr {e : Expr} {f f' : ExprFields} (hname : f'.name = f.name)
    (hfind : ∀ kind ∈ numberKinds e, f'.find? kind = f.find? kind)
    (hvalue : ∀ kind ∈ valueKinds e, ∀ v, f.value kind = .ok v → f'.value kind = .ok v)
    (h : exprOfFields f = .ok e) : exprOfFields f' = .ok e := by
  have hnat32 {kind : UInt16} (hk : kind ∈ numberKinds e) : f'.nat32 kind = f.nat32 kind := by
    rw [ExprFields.nat32, hfind kind hk]
    rfl
  have hnat64 {kind : UInt16} (hk : kind ∈ numberKinds e) : f'.nat64 kind = f.nat64 kind := by
    rw [ExprFields.nat64, hfind kind hk]
    rfl
  have hregister {kind : UInt16} (hk : kind ∈ numberKinds e) :
      f'.register kind = f.register kind := by
    rw [ExprFields.register, hfind kind hk, hname]
    rfl
  unfold exprOfFields at h ⊢
  rw [hname]
  split_ifs at h ⊢ with _ _ _ hbitwise _
  · simp only [bind_eq_ok_iff, pure_eq_ok_iff] at h ⊢
    obtain ⟨key, hkey, target, htarget, rfl⟩ := h
    rw [hnat32 (by simp [numberKinds]), hregister (by simp [numberKinds])]
    exact ⟨key, hkey, target, htarget, rfl⟩
  · simp only [bind_eq_ok_iff, pure_eq_ok_iff] at h ⊢
    obtain ⟨base, hbase, offset, hoffset, length, hlength, target, htarget, rfl⟩ := h
    rw [hnat32 (by simp [numberKinds]), hnat32 (by simp [numberKinds]),
      hnat32 (by simp [numberKinds]), hregister (by simp [numberKinds])]
    exact ⟨base, hbase, offset, hoffset, length, hlength, target, htarget, rfl⟩
  · simp only [bind_eq_ok_iff, pure_eq_ok_iff] at h ⊢
    obtain ⟨source, hsource, op, hop, data, hdata, rfl⟩ := h
    rw [hregister (by simp [numberKinds]), hnat32 (by simp [numberKinds])]
    exact ⟨source, hsource, op, hop, data, hvalue _ (by simp [valueKinds]) data hdata, rfl⟩
  · obtain ⟨op, hop, h⟩ := bind_eq_ok_iff.1 h
    by_cases h0 : op ≠ 0
    · simp only [h0, if_true, not_false_eq_true, ne_eq, pure_eq_ok_iff] at h
      subst h
      rw [hnat32 (by simp [numberKinds, hbitwise]), hop]
      refine bind_eq_ok_iff.2 ⟨op, rfl, ?_⟩
      simp only [h0, if_true, not_false_eq_true, ne_eq, pure_eq_ok_iff]
    · simp only [h0, if_false, bind_eq_ok_iff, pure_eq_ok_iff] at h
      obtain ⟨source, hsource, target, htarget, length, hlength, mask, hmask, xor, hxor, rfl⟩ := h
      rw [hnat32 (by simp [numberKinds]), hop]
      refine bind_eq_ok_iff.2 ⟨op, rfl, ?_⟩
      simp only [h0, if_false, bind_eq_ok_iff, pure_eq_ok_iff]
      rw [hregister (by simp [numberKinds]), hregister (by simp [numberKinds]),
        hnat32 (by simp [numberKinds])]
      exact ⟨source, hsource, target, htarget, length, hlength,
        mask, hvalue _ (by simp [valueKinds]) mask hmask,
        xor, hvalue _ (by simp [valueKinds]) xor hxor, rfl⟩
  · simp only [bind_eq_ok_iff, pure_eq_ok_iff] at h ⊢
    obtain ⟨packets, hpackets, bytes, hbytes, rfl⟩ := h
    rw [hnat64 (by simp [numberKinds]), hnat64 (by simp [numberKinds])]
    exact ⟨packets, hpackets, bytes, hbytes, rfl⟩
  · exact h

theorem BodyExtends.exprOfFields {e : Expr} {body body' : Bytes} (h : BodyExtends e body body')
    {name : String} {items : List Attribute} (hread : attributes body = items.map .ok)
    (he : exprOfFields ⟨name, items⟩ = .ok e) :
    ∃ items', attributes body' = items'.map .ok ∧ Wire.exprOfFields ⟨name, items'⟩ = .ok e := by
  obtain ⟨items', hread', hfind⟩ := Extends.fields (OperandExtends.refl e) name h hread
  refine ⟨items', hread',
    exprOfFields_congr (f := ⟨name, items⟩) rfl (fun kind hk => ?_) (fun kind hk v => ?_) he⟩
  · exact find?_of_extends hk (hfind kind (List.mem_append_left _ hk))
  · exact value_of_extends (hfind kind (List.mem_append_right _ hk))

theorem readExpr_eq_ok_iff {x : Bytes} {e : Expr} : readExpr x = .ok e ↔
    ∃ name body items, absorb ExprDraft.absorb {} x = .ok ⟨some name, body⟩ ∧
      attributes body = items.map .ok ∧ exprOfFields ⟨name, items⟩ = .ok e := by
  unfold readExpr
  rw [bind_eq_ok_iff]
  constructor
  · rintro ⟨⟨name?, body⟩, hs, h⟩
    cases name? with
    | none => cases h
    | some name =>
      obtain ⟨items, hitems, he⟩ := bind_eq_ok_iff.1 h
      exact ⟨name, body, items, hs, mapM_id_eq_ok_iff.1 hitems, he⟩
  · rintro ⟨name, body, items, hs, hitems, he⟩
    exact ⟨_, hs, bind_eq_ok_iff.2 ⟨items, mapM_id_eq_ok_iff.2 hitems, he⟩⟩

/-- What an element may become: more may be said of the expression that is read of it. -/
def ElementExtends (x x' : Bytes) : Prop := ∃ e, readExpr x = .ok e ∧
  Extends [ExprAttr.name, ExprAttr.data]
    (fun kind => if kind = ExprAttr.data then BodyExtends e else Eq) x x'

namespace ExprDraft

theorem absorb_of_unused (s : ExprDraft) {a : Attribute}
    (h : a.kind ∉ [ExprAttr.name, ExprAttr.data]) : s.absorb a = .ok s := by
  simp only [List.mem_cons, List.not_mem_nil, or_false, not_or] at h
  rw [absorb, if_neg h.1, if_neg h.2]

/-- Two drafts of the same name, of which the second has the larger body. -/
def Extends (e : Expr) (s s' : ExprDraft) : Prop :=
  s'.name = s.name ∧ BodyExtends e s.body s'.body

theorem Extends.absorb {e : Expr} {s s' t : ExprDraft} (hs : s.Extends e s') {kind : UInt16}
    {data data' : Bytes} (hd : if kind = ExprAttr.data then BodyExtends e data data'
      else data = data') (h : s.absorb ⟨kind, data⟩ = .ok t) :
    ∃ t', s'.absorb ⟨kind, data'⟩ = .ok t' ∧ t.Extends e t' := by
  obtain ⟨hname, hbody⟩ := hs
  unfold ExprDraft.absorb at h ⊢
  by_cases hn : kind = ExprAttr.name
  · rw [if_neg (by rw [hn]; decide)] at hd
    subst hd
    rw [if_pos hn] at h ⊢
    obtain ⟨name, hread, rfl⟩ := map_eq_ok_iff.1 h
    exact ⟨_, map_eq_ok_iff.2 ⟨name, hread, rfl⟩, rfl, hbody⟩
  rw [if_neg hn] at h ⊢
  by_cases hk : kind = ExprAttr.data
  · rw [if_pos hk] at hd h ⊢
    cases h
    exact ⟨_, rfl, hname, hd⟩
  · rw [if_neg hk] at h ⊢
    cases h
    exact ⟨s', rfl, hname, hbody⟩

end ExprDraft

theorem readExpr_of_extends {x x' : Bytes} {e : Expr} (h : readExpr x = .ok e)
    (hx : ElementExtends x x') : readExpr x' = .ok e := by
  obtain ⟨e', he', hx⟩ := hx
  obtain rfl : e = e' := Except.ok.inj (h.symm.trans he')
  obtain ⟨name, body, items, hs, hitems, he⟩ := readExpr_eq_ok_iff.1 h
  have hrefl (kind : UInt16) (data : Bytes) : if kind = ExprAttr.data then
      BodyExtends e data data else data = data := by
    split
    · exact Extends.refl data
    · rfl
  have hstart : ExprDraft.Extends e {} {} := ⟨rfl, Extends.refl _⟩
  obtain ⟨⟨name', body'⟩, hs', hname, hbody⟩ := hx.absorb
    (fun hs ha => hs.absorb (hrefl _ _) ha)
    (fun _ hd hs ha => hs.absorb (by split at hd <;> simp_all) ha)
    (fun s _ ha => s.absorb_of_unused ha) hstart hs
  obtain ⟨items', hitems', he'⟩ := hbody.exprOfFields hitems he
  simp only at hname
  subst hname
  exact readExpr_eq_ok_iff.2 ⟨name, body', items', hs', hitems', he'⟩

/-! ## Rules -/

/-- What a list of expressions may become: elements more of which is said, and other entries. -/
def ListExtends : Bytes → Bytes → Prop := Extends [ListAttr.elem] fun _ => ElementExtends

theorem readExprs_of_extends {before es : List Expr} {data data' : Bytes}
    (hd : ListExtends data data') (h : readExprs before data = .ok es) :
    readExprs before data' = .ok es := by
  refine hd.absorb_eq (fun {s t kind data data'} hk hx hs => ?_) (fun s a ha => ?_) h
  · rw [if_pos (List.mem_singleton.1 hk)] at hs ⊢
    obtain ⟨e, he, rfl⟩ := map_eq_ok_iff.1 hs
    exact map_eq_ok_iff.2 ⟨e, readExpr_of_extends he hx, rfl⟩
  · rw [if_neg (by simpa using ha)]

def ruleKinds : List UInt16 :=
  [RuleAttr.table, RuleAttr.chain, RuleAttr.handle, RuleAttr.exprs, RuleAttr.userdata]

/-- What the attributes of a rule may become. -/
def RuleExtends : Bytes → Bytes → Prop :=
  Extends ruleKinds fun kind => if kind = RuleAttr.exprs then ListExtends else Eq

namespace RuleDraft

theorem absorb_of_unused (s : RuleDraft) {a : Attribute} (h : a.kind ∉ ruleKinds) :
    s.absorb a = .ok s := by
  simp only [ruleKinds, List.mem_cons, List.not_mem_nil, or_false, not_or] at h
  obtain ⟨ht, hc, hh, he, hu⟩ := h
  rw [absorb, if_neg ht, if_neg hc, if_neg hh, if_neg he, if_neg hu]

theorem absorb_of_extends {body body' : Bytes} (hb : RuleExtends body body') {s t : RuleDraft}
    (h : Wire.absorb absorb s body = .ok t) : Wire.absorb absorb s body' = .ok t := by
  refine hb.absorb_eq (fun {s t kind data data'} hk hd hs => ?_) absorb_of_unused h
  by_cases he : kind = RuleAttr.exprs
  · rw [if_pos he] at hd
    subst he
    rw [absorb_exprs] at hs ⊢
    obtain ⟨es, hes, rfl⟩ := map_eq_ok_iff.1 hs
    exact map_eq_ok_iff.2 ⟨es, readExprs_of_extends hd hes, rfl⟩
  · rw [if_neg he] at hd
    exact hd ▸ hs

/-- Each part of a rule is read from the attributes of its kind alone. -/
theorem foldlM_absorb_eq_ok_iff {items : List Attribute} : ∀ {s t : RuleDraft},
    items.foldlM absorb s = .ok t ↔
      (items.filter (·.kind = RuleAttr.table)).foldlM
          (fun _ a => (readString a.data).map some) s.table = .ok t.table ∧
        (items.filter (·.kind = RuleAttr.chain)).foldlM
          (fun _ a => (readString a.data).map some) s.chain = .ok t.chain ∧
        (items.filter (·.kind = RuleAttr.handle)).foldlM
          (fun _ a => (readNat64 a.data).map some) s.handle = .ok t.handle ∧
        (items.filter (·.kind = RuleAttr.exprs)).foldlM
          (fun es a => readExprs es a.data) s.exprs = .ok t.exprs ∧
        (items.filter (·.kind = RuleAttr.userdata)).foldl
          (fun _ a => readComment a.data) s.comment = t.comment := by
  induction items with
  | nil =>
    intro s t
    obtain ⟨table, chain, handle, exprs, comment⟩ := s
    obtain ⟨table', chain', handle', exprs', comment'⟩ := t
    simp [pure, Except.pure]
  | cons a items ih =>
    intro s t
    obtain ⟨kind, data⟩ := a
    rw [List.foldlM_cons]
    by_cases hu : kind ∈ ruleKinds
    · simp only [ruleKinds, List.mem_cons, List.not_mem_nil, or_false] at hu
      -- the filters of the other kinds pass over it
      have hkinds : RuleAttr.table = 1 ∧ RuleAttr.chain = 2 ∧ RuleAttr.handle = 3 ∧
        RuleAttr.exprs = 4 ∧ RuleAttr.userdata = 7 := by decide
      rcases hu with rfl | rfl | rfl | rfl | rfl
      · rw [absorb_table]
        cases hr : readString data <;> simp [hr, ih, hkinds, Except.map, bind, Except.bind]
      · rw [absorb_chain]
        cases hr : readString data <;> simp [hr, ih, hkinds, Except.map, bind, Except.bind]
      · rw [absorb_handle]
        cases hr : readNat64 data <;> simp [hr, ih, hkinds, Except.map, bind, Except.bind]
      · rw [absorb_exprs]
        cases hr : readExprs s.exprs data <;>
          simp [hr, ih, hkinds, Except.map, bind, Except.bind]
      · rw [absorb_userdata]
        simp [ih, hkinds, bind, Except.bind]
    · rw [absorb_of_unused s hu]
      simp only [ruleKinds, List.mem_cons, List.not_mem_nil, or_false, not_or] at hu
      simp [ih, hu, bind, Except.bind]

/-- So their order does not matter but among those of one kind. -/
theorem foldlM_absorb_reorder {items items' : List Attribute}
    (h : ∀ kind, items.filter (·.kind = kind) = items'.filter (·.kind = kind))
    {s t : RuleDraft} (hread : items.foldlM absorb s = .ok t) :
    items'.foldlM absorb s = .ok t := by
  rw [foldlM_absorb_eq_ok_iff] at hread ⊢
  simpa only [h] using hread

end RuleDraft

namespace Chunk

def item (c : Chunk) : Attribute := ⟨c.kind, c.data⟩

/-- Attributes one behind the other. -/
def join (cs : List Chunk) : Bytes := cs.flatMap bytes

theorem absorb_join_append {σ : Type} (step : σ → Attribute → Except WireError σ) (s : σ)
    (cs : List Chunk) (tail : Bytes) : absorb step s (join cs ++ tail) =
      (cs.map item).foldlM step s >>= fun s => absorb step s tail := by
  induction cs generalizing s with
  | nil => rfl
  | cons c cs ih =>
    rw [join, List.flatMap_cons, List.append_assoc,
      absorb_of_cons _ _ (c.attributes_bytes_append _), List.map_cons, List.foldlM_cons]
    show (step s c.item).bind _ = _
    cases step s c.item with
    | error e => rfl
    | ok s₁ => exact ih s₁

end Chunk

/-- What a kernel that knows more may do to the message of a rule. -/
inductive RuleChange : Bytes → Bytes → Prop where
  /-- say more, at any level, and mark kinds or not -/
  | extend {front body body' : Bytes} (hf : front.length = 4) (h : RuleExtends body body') :
    RuleChange (front ++ body) (front ++ body')
  /-- say it in another order, but for attributes of the same kind -/
  | reorder {front : Bytes} {cs cs' : List Chunk} {tail : Bytes} (hf : front.length = 4)
    (h : ∀ kind, cs.filter (·.kind = kind) = cs'.filter (·.kind = kind)) :
    RuleChange (front ++ (Chunk.join cs ++ tail)) (front ++ (Chunk.join cs' ++ tail))

/-- Neighbours of different kinds may change places. -/
theorem RuleChange.swap {front : Bytes} {a b : Chunk} (tail : Bytes) (hf : front.length = 4)
    (h : a.kind ≠ b.kind) :
    RuleChange (front ++ (a.bytes ++ (b.bytes ++ tail)))
      (front ++ (b.bytes ++ (a.bytes ++ tail))) := by
  have hjoin (x y : Chunk) : x.bytes ++ (y.bytes ++ tail) = Chunk.join [x, y] ++ tail := by
    simp [Chunk.join]
  rw [hjoin, hjoin]
  refine .reorder hf fun kind => ?_
  by_cases ha : a.kind = kind
  · have hb : b.kind ≠ kind := fun hb => h (ha.trans hb.symm)
    simp [ha, hb]
  · simp [List.filter_cons, ha]

theorem readRule_append_of_absorb {front body body' : Bytes} (hf : front.length = 4)
    (h : ∀ s, absorb RuleDraft.absorb {} body = .ok s → absorb RuleDraft.absorb {} body' = .ok s)
    {r : Rule} (hread : readRule (front ++ body) = .ok r) : readRule (front ++ body') = .ok r := by
  match front, hf with
  | [number, _, _, _], _ =>
    simp only [readRule, List.cons_append, List.nil_append, readHeader] at hread ⊢
    cases hfamily : Family.ofNumber? number with
    | none =>
      rw [hfamily] at hread
      cases hread
    | some family =>
      rw [hfamily] at hread
      obtain ⟨_, ⟨⟩, hread⟩ := bind_eq_ok_iff.1 hread
      obtain ⟨s, hs, hrule⟩ := bind_eq_ok_iff.1 hread
      exact bind_eq_ok_iff.2 ⟨_, rfl, bind_eq_ok_iff.2 ⟨s, h s hs, hrule⟩⟩

theorem RuleChange.readRule {d d' : Bytes} (hd : RuleChange d d') {r : Rule}
    (h : readRule d = .ok r) : Wire.readRule d' = .ok r := by
  cases hd with
  | extend hf hb =>
    exact readRule_append_of_absorb hf (fun s => RuleDraft.absorb_of_extends hb) h
  | @reorder front cs cs' tail hf hcs =>
    refine readRule_append_of_absorb hf (fun s hs => ?_) h
    rw [Chunk.absorb_join_append, bind_eq_ok_iff] at hs ⊢
    obtain ⟨s₁, hs₁, htail⟩ := hs
    refine ⟨s₁, RuleDraft.foldlM_absorb_reorder (fun kind => ?_) hs₁, htail⟩
    rw [List.filter_map, List.filter_map]
    exact congrArg (List.map Chunk.item) (hcs kind)

/-- A rule is read the same from its message after any number of such changes. -/
theorem readRule_of_changes {d d' : Bytes} {r : Rule} (h : readRule d = .ok r)
    (hd : Relation.ReflTransGen RuleChange d d') : readRule d' = .ok r := by
  induction hd with
  | refl => exact h
  | tail _ hstep ih => exact hstep.readRule ih

/-! ## A message that says more at every level -/

/-- An attribute that is padded with zeros. -/
def Chunk.plain (mark : UInt16) (data : Bytes) (h : Fits data := by decide) : Chunk where
  mark := mark
  data := data
  pad := Bytes.zeros (padding data.length)
  fits := h
  length_pad := by simp [Bytes.zeros]

namespace Wordy

open Chunk (join plain)

/-- The value that a byte is compared with, alone and with more said of it. -/
def value : Bool → Bytes
  | false => join [plain 1 [6]]
  | true => join [plain 2 [0, 0], plain 0x4001 [6]]

def body : Bool → Bytes
  | false => join [plain 1 [0, 0, 0, 1], plain 0x8003 (value false)]
  | true => join [plain 1 [0, 0, 0, 1], plain 9 [7], plain 3 (value true)]

def element : Bool → Bytes
  | false => join [plain 1 (terminated "cmp"), plain 0x8002 (body false)]
  | true => join [plain 7 [], plain 1 (terminated "cmp"), plain 0xc002 (body true)]

def list : Bool → Bytes
  | false => join [plain 0x8001 (element false)]
  | true => join [plain 1 (element true), plain 3 [1, 2, 3]]

def table : Chunk := plain 1 (terminated "t")

def chain : Chunk := plain 2 (terminated "c")

def position : Chunk := plain 6 [0, 0, 0, 0, 0, 0, 0, 9]

def exprs : Bool → Chunk
  | false => plain 0x8004 (list false)
  | true => plain 0x4004 (list true)

theorem readExpr_element : readExpr (element false) = .ok (.compare ⟨1⟩ .equal [6]) := by
  decide +kernel

theorem value_extends : Extends [DataAttr.value] (fun _ => Eq) (value false) (value true) := by
  refine .insert (by decide) ?_
  exact .keep (by decide) (fun _ => rfl) (.refl [])

theorem body_extends : BodyExtends (.compare ⟨1⟩ .equal [6]) (body false) (body true) := by
  refine .keep rfl (fun _ => rfl) (.insert (by decide) ?_)
  exact .keep (by decide) (fun _ => value_extends) (.refl [])

theorem element_extends : ElementExtends (element false) (element true) := by
  refine ⟨_, readExpr_element, .insert (by decide) (.keep rfl (fun _ => rfl) ?_)⟩
  exact .keep (by decide) (fun _ => body_extends) (.refl [])

theorem list_extends : ListExtends (list false) (list true) := by
  refine .keep (by decide) (fun _ => element_extends) ?_
  exact .insert (by decide) (.refl [])

theorem rule_extends : RuleExtends (join [table, chain, exprs false])
    (join [table, position, chain, exprs true]) := by
  refine .keep rfl (fun _ => rfl) (.insert (by decide) (.keep rfl (fun _ => rfl) ?_))
  exact .keep (by decide) (fun _ => list_extends) (.refl [])

end Wordy

open Chunk (join) in
open Wordy in
theorem readRule_of_changes_wordy :
    readRule (header 2 0 ++ join [table, chain, exprs false]) =
        .ok ⟨⟨.ip, "t"⟩, "c", none, [.compare ⟨1⟩ .equal [6]], none⟩ ∧
      Relation.ReflTransGen RuleChange (header 2 0 ++ join [table, chain, exprs false])
        (header 2 0 ++ join [position, table, chain, exprs true]) ∧
      readRule (header 2 0 ++ join [position, table, chain, exprs true]) =
        .ok ⟨⟨.ip, "t"⟩, "c", none, [.compare ⟨1⟩ .equal [6]], none⟩ := by
  have hread : readRule (header 2 0 ++ join [table, chain, exprs false]) =
      .ok ⟨⟨.ip, "t"⟩, "c", none, [.compare ⟨1⟩ .equal [6]], none⟩ := by decide +kernel
  have hextend : RuleChange (header 2 0 ++ join [table, chain, exprs false])
      (header 2 0 ++ join [table, position, chain, exprs true]) := .extend rfl rule_extends
  have hswap : RuleChange (header 2 0 ++ join [table, position, chain, exprs true])
      (header 2 0 ++ join [position, table, chain, exprs true]) :=
    .swap (join [chain, exprs true]) rfl (by decide)
  have hchanges := (Relation.ReflTransGen.single hextend).tail hswap
  exact ⟨hread, hchanges, readRule_of_changes hread hchanges⟩

end Wire

end FlowTally
