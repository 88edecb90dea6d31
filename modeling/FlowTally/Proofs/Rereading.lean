import FlowTally.Proofs.RuleMessages
import Mathlib.Algebra.BigOperators.Ring.List
import Mathlib.Algebra.Ring.Nat
/-!
# Rules that outgrow their message

A rule may be read from a message and not fit its own: a name comes without a terminator and is
written with one, an expression comes without what is zero and is written with it. A rule that fits
is read again as it was. One that does not is either not read at all, or the list of its expressions
ends where its wrapped length says (`Wire.exists_of_readExprs_take`); the others are taken for
attributes of the rule, and none of those is a list of expressions (`Wire.listless_writeExprs`).
-/

namespace FlowTally

namespace Wire

/-! ## What has been read -/

theorem canonical_of_exprOfFields {f : ExprFields} {e : Expr} (h : exprOfFields f = .ok e) :
    e.Canonical := by
  unfold exprOfFields at h
  split_ifs at h
  · simp only [bind_eq_ok_iff, pure_eq_ok_iff] at h
    obtain ⟨key, -, target, -, rfl⟩ := h
    exact MetaKey.canonical_ofRaw key
  · simp only [bind_eq_ok_iff, pure_eq_ok_iff] at h
    obtain ⟨base, -, offset, -, length, -, target, -, rfl⟩ := h
    exact HeaderBase.canonical_ofRaw base
  · simp only [bind_eq_ok_iff, pure_eq_ok_iff] at h
    obtain ⟨source, -, op, -, data, -, rfl⟩ := h
    exact CompareOp.canonical_ofRaw op
  · obtain ⟨op, -, h⟩ := bind_eq_ok_iff.1 h
    by_cases hop : op ≠ 0
    · simp only [hop, if_true, not_false_eq_true, ne_eq, pure_eq_ok_iff] at h
      exact h ▸ trivial
    · simp only [hop, if_false, bind_eq_ok_iff, pure_eq_ok_iff] at h
      obtain ⟨source, -, target, -, length, -, mask, -, xor, -, rfl⟩ := h
      trivial
  · simp only [bind_eq_ok_iff, pure_eq_ok_iff] at h
    obtain ⟨packets, -, bytes, -, rfl⟩ := h
    trivial
  · cases h
    trivial

theorem canonical_of_readExpr {x : Bytes} {e : Expr} (h : readExpr x = .ok e) : e.Canonical := by
  obtain ⟨s, -, h⟩ := bind_eq_ok_iff.1 h
  cases hn : s.name with
  | none => rw [hn] at h; cases h
  | some name =>
    rw [hn] at h
    obtain ⟨items, -, h⟩ := bind_eq_ok_iff.1 h
    exact canonical_of_exprOfFields h

theorem canonical_of_readExprs {before es : List Expr} {data : Bytes}
    (hb : ∀ e ∈ before, e.Canonical) (h : readExprs before data = .ok es) :
    ∀ e ∈ es, e.Canonical := by
  refine absorb_invariant (P := fun es => ∀ e ∈ es, e.Canonical) (fun es es' a _ hs h => ?_) hb h
  split_ifs at h
  · obtain ⟨e, he, rfl⟩ := map_eq_ok_iff.1 h
    intro x hx
    rcases List.mem_append.1 hx with hx | hx
    · exact hs x hx
    · exact List.mem_singleton.1 hx ▸ canonical_of_readExpr he
  · cases h
    exact hs

/-- What holds of a rule as far as it has been read. -/
structure RuleDraft.Sound (s : RuleDraft) : Prop where
  table : ∀ t ∈ s.table, Fits (Bytes.ofString t)
  chain : ∀ c ∈ s.chain, Fits (Bytes.ofString c)
  exprs : ∀ e ∈ s.exprs, e.Canonical

theorem RuleDraft.Sound.absorb {s s' : RuleDraft} {a : Attribute} (hf : Fits a.data)
    (hs : s.Sound) (h : s.absorb a = .ok s') : s'.Sound := by
  unfold RuleDraft.absorb at h
  split_ifs at h
  · obtain ⟨t, ht, rfl⟩ := map_eq_ok_iff.1 h
    exact ⟨by simpa using fits_of_readString hf ht, hs.chain, hs.exprs⟩
  · obtain ⟨c, hc, rfl⟩ := map_eq_ok_iff.1 h
    exact ⟨hs.table, by simpa using fits_of_readString hf hc, hs.exprs⟩
  · obtain ⟨n, -, rfl⟩ := map_eq_ok_iff.1 h
    exact ⟨hs.table, hs.chain, hs.exprs⟩
  · obtain ⟨es, hes, rfl⟩ := map_eq_ok_iff.1 h
    exact ⟨hs.table, hs.chain, canonical_of_readExprs hs.exprs hes⟩
  · cases h
    exact ⟨hs.table, hs.chain, hs.exprs⟩
  · cases h
    exact hs

/-- The attributes that a rule was read from. -/
theorem exists_of_readRule {d : Bytes} {r : Rule} (h : readRule d = .ok r) :
    ∃ body s, readHeader d = .ok (r.table.family, body) ∧
      absorb RuleDraft.absorb {} body = .ok s ∧ s.table = some r.table.name ∧
      s.chain = some r.chain ∧ s.exprs = r.exprs := by
  obtain ⟨⟨family, body⟩, hd, h⟩ := bind_eq_ok_iff.1 h
  obtain ⟨s, hs, h⟩ := bind_eq_ok_iff.1 h
  cases ht : s.table with
  | none => rw [ht] at h; cases h
  | some t =>
    cases hc : s.chain with
    | none => rw [ht, hc] at h; cases h
    | some c =>
      rw [ht, hc] at h
      cases h
      exact ⟨body, s, hd, hs, ht, hc, rfl⟩

theorem sound_of_readRule {d : Bytes} {r : Rule} (h : readRule d = .ok r) :
    Fits (Bytes.ofString r.table.name) ∧ Fits (Bytes.ofString r.chain) ∧
      ∀ e ∈ r.exprs, e.Canonical := by
  obtain ⟨body, s, -, hs, ht, hc, he⟩ := exists_of_readRule h
  have hsound : s.Sound := absorb_invariant (P := RuleDraft.Sound)
    (fun _ _ _ ha hs h => hs.absorb (fits_of_mem_attributes ha) h)
    ⟨by simp, by simp, by simp⟩ hs
  exact ⟨hsound.table _ ht, hsound.chain _ hc, he ▸ hsound.exprs⟩

/-! ## Lists of expressions that are cut off -/

@[simp]
theorem readExprs_nil (before : List Expr) : readExprs before [] = .ok before := by
  simp [readExprs]

theorem readExprs_of_cons {before : List Expr} {buf rest : Bytes} {a : Attribute}
    (h : attributes buf = .ok a :: attributes rest) (ha : a.kind = ListAttr.elem) :
    readExprs before buf =
      (readExpr a.data).bind fun e => readExprs (before ++ [e]) rest := by
  rw [readExprs, absorb_of_cons _ _ h, if_pos ha]
  cases readExpr a.data <;> rfl

theorem readExprs_nested {before : List Expr} {data rest : Bytes} (hf : Fits data) :
    readExprs before (nested ListAttr.elem data ++ rest) =
      (readExpr data).bind fun e => readExprs (before ++ [e]) rest :=
  readExprs_of_cons (attributes_nested (by decide) hf rest) rfl

theorem readExpr_nil : readExpr [] = .error .unnamedExpr := by
  simp [readExpr, bind, Except.bind, throw, throwThe, MonadExceptOf.throw]

/-- An expression that does not fit, but not by more than four bytes, has a length that wraps to
nothing or to that of an attribute without data. -/
theorem length_of_not_fits {e : Expr} {a : Bytes} (ha : writeExpr e = .ok a)
    (hs : exprLength e ≤ 0x10000) (hf : ¬Fits a) : a.length = 0xfffc ∨ a.length = 0x10000 := by
  have hd := dvd_exprLength e
  rw [← length_writeExpr ha] at hd hs
  unfold Fits at hf
  omega

theorem length_nested_writeExpr (kind : UInt16) {e : Expr} {a : Bytes} (ha : writeExpr e = .ok a) :
    (nested kind a).length = 4 + a.length := by
  rw [length_nested, length_writeExpr ha, padded_of_dvd (dvd_exprLength e)]

/-- Of a list that is cut off, all expressions in front of the cut are read, or none. -/
theorem exists_of_readExprs_take {es : List Expr} : ∀ {list : Bytes} {m : Nat}
    {before es' : List Expr}, (∀ e ∈ es, e.Canonical ∧ exprLength e ≤ 0x10000) →
    writeExprs es = .ok list → 4 ∣ m → readExprs before (list.take m) = .ok es' →
    ∃ es₁ es₂, es = es₁ ++ es₂ ∧ es' = before ++ es₁ ∧ writeExprs es₂ = .ok (list.drop m) := by
  induction es with
  | nil =>
    intro list m before es' _ h _ hread
    obtain rfl : [] = list := by simpa [writeExprs_nil] using h
    rw [List.take_nil, readExprs_nil] at hread
    cases hread
    exact ⟨[], [], rfl, (List.append_nil _).symm, by rw [List.drop_nil, writeExprs_nil]⟩
  | cons e es ih =>
    intro list m before es' hes h hm hread
    obtain ⟨a, rest, ha, hrest, rfl⟩ := writeExprs_cons_eq_ok_iff.1 h
    obtain ⟨hc, hsize⟩ := hes e List.mem_cons_self
    have hlen := length_nested_writeExpr ListAttr.elem ha
    rcases Nat.eq_zero_or_pos m with rfl | hpos
    · rw [List.take_zero, readExprs_nil] at hread
      cases hread
      exact ⟨[], e :: es, rfl, (List.append_nil _).symm, by rwa [List.drop_zero]⟩
    obtain ⟨k, rfl⟩ : ∃ k, m = 4 + k := ⟨m - 4, by omega⟩
    by_cases hf : Fits a
    · by_cases hk : k < a.length
      · rw [readExprs, nested, absorb_of_error _ _ (attributes_take_attr _ hf rest hk)] at hread
        cases hread
      · -- the whole expression stands in front of the cut
        have htake : (nested ListAttr.elem a ++ rest).take (4 + k) =
            nested ListAttr.elem a ++ rest.take (k - a.length) := by
          rw [List.take_append, hlen, List.take_of_length_le (by omega)]
          congr 2
          omega
        have hdrop : (nested ListAttr.elem a ++ rest).drop (4 + k) = rest.drop (k - a.length) := by
          rw [List.drop_append, hlen, List.drop_of_length_le (by omega), List.nil_append]
          congr 1
          omega
        rw [htake, readExprs_nested hf, readExpr_writeExpr hc ha hf] at hread
        have hk' : 4 ∣ k - a.length := by
          have hd := dvd_exprLength e
          rw [← length_writeExpr ha] at hd
          omega
        obtain ⟨es₁, es₂, rfl, rfl, hw⟩ :=
          ih (fun x hx => hes x (List.mem_cons_of_mem e hx)) hrest hk' hread
        exact ⟨e :: es₁, es₂, rfl, by simp, by rw [hw, hdrop]⟩
    · rw [nested, take_attr_append] at hread
      rcases length_of_not_fits ha hsize hf with hl | hl
      · rw [readExprs, absorb_of_error _ _ (attributes_of_length_wraps _ hl _)] at hread
        cases hread
      · rw [readExprs_of_cons (attributes_of_length_skips _ hl _)
          (unmarked_nested (by decide : ListAttr.elem < 0x4000)), readExpr_nil] at hread
        cases hread

/-! ## What is left of a list -/

/-- No list of expressions is among the attributes. -/
def Listless (buf : Bytes) : Prop := ∀ a, .ok a ∈ attributes buf → a.kind ≠ RuleAttr.exprs

namespace Listless

theorem of_cons {buf rest : Bytes} {a : Attribute}
    (h : attributes buf = .ok a :: attributes rest) (ha : a.kind ≠ RuleAttr.exprs)
    (hr : Listless rest) : Listless buf := by
  intro b hb
  rw [h] at hb
  rcases List.mem_cons.1 hb with hb | hb
  · cases hb
    exact ha
  · exact hr b hb

theorem of_error {buf : Bytes} {e : WireError} (h : attributes buf = [.error e]) :
    Listless buf := by
  intro b hb
  simp [h] at hb

theorem nil : Listless [] := by
  intro b hb
  simp at hb

end Listless

theorem listless_commentAttr {comment : Option String}
    (h : ∀ c ∈ comment, c.utf8ByteSize ≤ maxCommentBytes ∧ '\x00' ∉ c.toList) :
    Listless (commentAttr comment) := by
  cases comment with
  | none => exact .nil
  | some c =>
    rw [commentAttr, ← List.append_nil (attr _ _)]
    exact .of_cons (attributes_attr (by decide) (fits_commentEntry (h c rfl).1) [])
      (by decide : RuleAttr.userdata ≠ RuleAttr.exprs) .nil

/-- Expressions that are taken for attributes of a rule name a table or a chain. -/
theorem listless_writeExprs {es : List Expr} : ∀ {list rest : Bytes},
    (∀ e ∈ es, exprLength e ≤ 0x10000) → writeExprs es = .ok list → Listless rest →
    Listless (list ++ rest) := by
  induction es with
  | nil =>
    intro list rest _ h hrest
    obtain rfl : [] = list := by simpa [writeExprs_nil] using h
    exact hrest
  | cons e es ih =>
    intro list rest hes h hrest
    obtain ⟨a, list, ha, hlist, rfl⟩ := writeExprs_cons_eq_ok_iff.1 h
    have hnext : Listless (list ++ rest) :=
      ih (fun x hx => hes x (List.mem_cons_of_mem e hx)) hlist hrest
    have helem : ListAttr.elem ≠ RuleAttr.exprs := by decide
    rw [List.append_assoc]
    by_cases hf : Fits a
    · exact .of_cons (attributes_nested (by decide) hf _) helem hnext
    rw [nested, attr_append]
    rcases length_of_not_fits ha (hes e List.mem_cons_self) hf with hl | hl
    · exact .of_error (attributes_of_length_wraps _ hl _)
    · refine .of_cons (attributes_of_length_skips _ hl _) helem ?_
      -- now the attributes of the expression stand among those of the rule
      obtain ⟨body, -, rfl⟩ := writeExpr_eq_ok_iff.1 ha
      have hlen := hl
      rw [List.length_append, length_attr, length_nested] at hlen
      have hname : Fits (terminated e.name) := by
        have hp := padded_spec (terminated e.name).length
        unfold Fits
        omega
      have hbody : Fits body := by
        have hp := padded_spec body.length
        unfold Fits
        omega
      rw [hl, show Bytes.zeros (padding 0x10000) = [] from rfl, List.nil_append,
        List.append_assoc]
      exact .of_cons (attributes_attr (by decide) hname _)
        (by decide : ExprAttr.name ≠ RuleAttr.exprs)
        (.of_cons (attributes_nested (by decide) hbody _)
          (by decide : ExprAttr.data ≠ RuleAttr.exprs) hnext)

theorem exprs_of_absorb {s s' : RuleDraft} {buf : Bytes} (hn : Listless buf)
    (h : absorb RuleDraft.absorb s buf = .ok s') : s'.exprs = s.exprs := by
  refine absorb_invariant (P := fun s' => s'.exprs = s.exprs) (fun s₁ s₂ a ha hs h => ?_) rfl h
  have hkind := hn a ha
  unfold RuleDraft.absorb at h
  split_ifs at h
  · obtain ⟨t, -, rfl⟩ := map_eq_ok_iff.1 h
    exact hs
  · obtain ⟨c, -, rfl⟩ := map_eq_ok_iff.1 h
    exact hs
  · obtain ⟨n, -, rfl⟩ := map_eq_ok_iff.1 h
    exact hs
  · cases h
    exact hs
  · cases h
    exact hs

/-! ## Reading a rule again -/

theorem dvd_length_writeExprs {es : List Expr} {list : Bytes} (h : writeExprs es = .ok list) :
    4 ∣ list.length := by
  rw [length_writeExprs h, exprsLength]
  refine List.dvd_sum fun n hn => ?_
  obtain ⟨e, -, rfl⟩ := List.mem_map.1 hn
  exact Nat.dvd_add (by decide) (dvd_exprLength e)

/-- Names that were read fit with their terminators if they are read again. -/
theorem fits_of_absorb_names {table chain : String} {rest : Bytes} {s : RuleDraft}
    (ht : '\x00' ∉ table.toList) (hft : Fits (Bytes.ofString table))
    (hc : '\x00' ∉ chain.toList) (hfc : Fits (Bytes.ofString chain))
    (h : absorb RuleDraft.absorb {} (attr RuleAttr.table (terminated table) ++
      (attr RuleAttr.chain (terminated chain) ++ rest)) = .ok s) :
    Fits (terminated table) ∧ Fits (terminated chain) ∧
      absorb RuleDraft.absorb ⟨table, chain, none, [], none⟩ rest = .ok s := by
  have htable : Fits (terminated table) := by
    by_contra hf
    rw [absorb_attr_of_not_fits _ _ hft hf] at h
    cases h
  rw [absorb_attr _ _ (by decide) htable, RuleDraft.absorb_table, readString_terminated ht] at h
  simp only [Except.map, Except.bind] at h
  have hchain : Fits (terminated chain) := by
    by_contra hf
    rw [absorb_attr_of_not_fits _ _ hfc hf] at h
    cases h
  rw [absorb_attr _ _ (by decide) hchain, RuleDraft.absorb_chain, readString_terminated hc] at h
  exact ⟨htable, hchain, h⟩

section Rereading
variable {r : Rule} {list : Bytes} (hl : writeExprs r.exprs = .ok list)
  (hes : ∀ e ∈ r.exprs, e.Canonical ∧ exprLength e ≤ 0x10000)
include hl hes

/-- A list of expressions that does not fit is read with some of them missing, if at all. -/
theorem fits_of_absorb_exprs {rest : Bytes} {s s' : RuleDraft} (hs : s.exprs = [])
    (hrest : Listless rest) (h : absorb RuleDraft.absorb s
      (nested RuleAttr.exprs list ++ rest) = .ok s') (he : s'.exprs = r.exprs) : Fits list := by
  by_contra hf
  have hd := dvd_length_writeExprs hl
  have hpad : Bytes.zeros (padding list.length) = [] := by
    have hp : padding list.length = 0 := by unfold padding; omega
    rw [hp]
    rfl
  obtain ⟨w, hw⟩ : ∃ w, w = (4 + list.length) % 0x10000 := ⟨_, rfl⟩
  rw [nested, attr_append, hpad, List.nil_append] at h
  have hhead := attributes_head (4 + list.length) (RuleAttr.exprs ||| 0x8000) (list ++ rest)
  rw [← hw] at hhead
  by_cases h4 : w < 4
  · rw [if_pos (.inl h4)] at hhead
    rw [absorb_of_error _ _ hhead] at h
    cases h
  -- the attribute ends inside the list, and the rest of the list is read behind it
  obtain ⟨m, rfl⟩ : ∃ m, w = 4 + m := ⟨w - 4, by omega⟩
  unfold Fits at hf
  have hm : m < list.length := by omega
  have hm4 : 4 ∣ m := by omega
  have hp : padding (4 + m) = 0 := by unfold padding; omega
  rw [if_neg (by simp; omega), Nat.add_sub_cancel_left, hp, Nat.add_zero,
    List.take_append_of_le_length hm.le, List.drop_append_of_le_length hm.le,
    unmarked_nested (by decide)] at hhead
  rw [absorb_of_cons _ _ hhead, RuleDraft.absorb_exprs] at h
  obtain ⟨s₁, h₁, h₂⟩ := bind_eq_ok_iff.1 h
  obtain ⟨es', hread, rfl⟩ := map_eq_ok_iff.1 h₁
  obtain ⟨es₁, es₂, hsplit, rfl, hes₂⟩ := exists_of_readExprs_take hes hl hm4 hread
  have hleft : Listless (list.drop m ++ rest) := listless_writeExprs
    (fun e he => (hes e (hsplit ▸ List.mem_append_right es₁ he)).2) hes₂ hrest
  have hkeep := exprs_of_absorb hleft h₂
  have hnil : es₂ = [] := by
    rw [he, hsplit, hs] at hkeep
    simpa using hkeep
  subst hnil
  rw [writeExprs_nil] at hes₂
  have hempty : list.drop m = [] := by injection hes₂ with h; exact h.symm
  exact hm.not_ge (List.drop_eq_nil_iff.1 hempty)

/-- A rule that is read from its message again fits it. -/
theorem fits_of_readRule_ruleBody {r' : Rule} (ht : r.Terminable)
    (htable : Fits (Bytes.ofString r.table.name)) (hchain : Fits (Bytes.ofString r.chain))
    (h : readRule (header r.table.family.number 0 ++ ruleBody r list) = .ok r')
    (he : r'.exprs = r.exprs) : r.Fits := by
  obtain ⟨body, s, hbody, hs, -, -, hse⟩ := exists_of_readRule h
  rw [readHeader_header] at hbody
  obtain rfl : _ = body := (Prod.mk.inj (Except.ok.inj hbody)).2
  obtain ⟨hft, hfc, hs⟩ := fits_of_absorb_names ht.table htable ht.chain hchain hs
  have hfe : Fits list :=
    fits_of_absorb_exprs hl hes rfl (listless_commentAttr ht.comment) hs (hse.trans he)
  refine ⟨hft, hfc, fun list' hl' => ?_⟩
  rw [hl] at hl'
  cases hl'
  exact hfe

end Rereading

end Wire

open Wire in
/-- A rule that is read and written again is read as it was if it fits its message, and not if it
does not; of an expression that is too long by itself the second half says nothing. -/
theorem Rule.reread {d b : Bytes} {r : Rule} (hd : readRule d = .ok r) (hb : writeRule r = .ok b) :
    (r.Fits → readRule b = .ok r.withoutHandle) ∧
      (¬ r.Fits → (∀ e ∈ r.exprs, exprLength e ≤ 0x10000) →
        readRule b ≠ .ok r.withoutHandle) := by
  obtain ⟨htable, hchain, hc⟩ := sound_of_readRule hd
  refine ⟨fun hf => readRule_writeRule hc hf hb, fun hf hsize hread => hf ?_⟩
  obtain ⟨ht, list, hl, rfl⟩ := writeRule_eq_ok_iff.1 hb
  exact fits_of_readRule_ruleBody hl (fun e he => ⟨hc e he, hsize e he⟩) ht htable hchain hread rfl

/-! ## Bare messages -/

/-- A rule that only counts, so many times. -/
def counting (table : Table) (chain : String) (n : Nat) : Rule where
  table := table
  chain := chain
  exprs := List.replicate n (.counter 0 0)

namespace Wire

/-- A counter of which only the name is there. -/
def bareCounter : Bytes := attr ExprAttr.name (Bytes.ofString "counter")

/-- The message of a counting rule in as few bytes as can be read. -/
def bareMessage (table : Table) (chain : String) (n : Nat) : Bytes :=
  header table.family.number 0 ++ (attr RuleAttr.table (Bytes.ofString table.name) ++
    (attr RuleAttr.chain (Bytes.ofString chain) ++
      nested RuleAttr.exprs (List.replicate n (nested ListAttr.elem bareCounter)).flatten))

theorem readExpr_bareCounter : readExpr bareCounter = .ok (.counter 0 0) := by
  have hn := readString_ofString (s := "counter") (by decide)
  have hread : absorb ExprDraft.absorb {} bareCounter = .ok { name := some "counter" } := by
    rw [bareCounter, ← List.append_nil (attr _ _), absorb_attr _ _ (by decide) (by decide)]
    simp only [ExprDraft.absorb, if_true, hn]
    exact absorb_nil _ _
  simp only [readExpr, hread, bind, Except.bind, attributes_nil]
  rfl

theorem readExprs_bareCounter (n : Nat) (before : List Expr) :
    readExprs before (List.replicate n (nested ListAttr.elem bareCounter)).flatten =
      .ok (before ++ List.replicate n (.counter 0 0)) := by
  induction n generalizing before with
  | zero => simp
  | succ n ih =>
    have hf : Fits bareCounter := by decide
    rw [List.replicate_succ, List.flatten_cons, readExprs_nested hf, readExpr_bareCounter]
    simp only [Except.bind, ih, List.append_assoc, List.singleton_append]
    rfl

theorem readRule_bareMessage {table : Table} {chain : String} {n : Nat}
    (ht : '\x00' ∉ table.name.toList) (hft : Fits (Bytes.ofString table.name))
    (hc : '\x00' ∉ chain.toList) (hfc : Fits (Bytes.ofString chain)) (hn : 4 + 16 * n < 0x10000) :
    readRule (bareMessage table chain n) = .ok (counting table chain n) := by
  have hlist : Fits (List.replicate n (nested ListAttr.elem bareCounter)).flatten := by
    have hlen : (nested ListAttr.elem bareCounter).length = 16 := by decide
    rw [Fits, List.length_flatten, List.map_replicate, hlen, List.sum_replicate_nat]
    omega
  rw [readRule, bareMessage, readHeader_header]
  simp only [bind, Except.bind]
  rw [absorb_attr _ _ (by decide) hft, RuleDraft.absorb_table, readString_ofString ht]
  simp only [Except.map, Except.bind]
  rw [absorb_attr _ _ (by decide) hfc, RuleDraft.absorb_chain, readString_ofString hc]
  simp only [Except.map, Except.bind]
  rw [← List.append_nil (nested RuleAttr.exprs _), absorb_nested _ _ (by decide) hlist,
    RuleDraft.absorb_exprs, readExprs_bareCounter]
  simp only [Except.map, Except.bind, absorb_nil]
  rfl

end Wire

open Wire in
theorem Rule.reread_counting :
    ∃ b, readRule (bareMessage ⟨.ip, "t"⟩ "c" 2) = .ok (counting ⟨.ip, "t"⟩ "c" 2) ∧
      writeRule (counting ⟨.ip, "t"⟩ "c" 2) = .ok b ∧ (counting ⟨.ip, "t"⟩ "c" 2).Fits ∧
      readRule b = .ok (counting ⟨.ip, "t"⟩ "c" 2).withoutHandle := by
  have hd : readRule (bareMessage ⟨.ip, "t"⟩ "c" 2) = .ok (counting ⟨.ip, "t"⟩ "c" 2) :=
    readRule_bareMessage (by decide) (by decide) (by decide) (by decide) (by decide)
  have hf : (counting ⟨.ip, "t"⟩ "c" 2).Fits := by
    refine ⟨by decide, by decide, fun list hl => ?_⟩
    rw [Wire.Fits, length_writeExprs hl]
    decide
  exact ⟨_, hd, rfl, hf, (Rule.reread hd rfl).1 hf⟩

namespace Wire

/-- The message of a rule whose table has a name that fits without its terminator only. -/
theorem readRule_error_of_name {r : Rule} {b : Bytes} (hn : Fits (Bytes.ofString r.table.name))
    (hf : ¬Fits (terminated r.table.name)) (h : writeRule r = .ok b) :
    readRule b = .error (.attributeLength RuleAttr.table 0) := by
  obtain ⟨-, list, -, rfl⟩ := writeRule_eq_ok_iff.1 h
  rw [readRule, readHeader_header]
  simp only [bind, Except.bind]
  rw [ruleBody, absorb_attr_of_not_fits _ _ hn hf]
  rfl

end Wire

/-- A name of so many letters. -/
def nameOfLength (n : Nat) : String := String.ofList (List.replicate n 'a')

theorem utf8ByteSize_nameOfLength (n : Nat) : (nameOfLength n).utf8ByteSize = n := by
  rw [← Bytes.length_ofString, Bytes.ofString_eq_flatMap, nameOfLength, String.toList_ofList,
    List.length_flatMap, List.map_replicate, List.sum_replicate_nat]
  exact Nat.mul_one n

theorem nul_not_mem_nameOfLength (n : Nat) : '\x00' ∉ (nameOfLength n).toList := by
  rw [nameOfLength, String.toList_ofList]
  intro h
  exact absurd (List.eq_of_mem_replicate h) (by decide)

open Wire in
theorem Rule.longNamed_lost :
    readRule (bareMessage ⟨.ip, nameOfLength 65531⟩ "c" 0) =
        .ok (counting ⟨.ip, nameOfLength 65531⟩ "c" 0) ∧
      ∃ b, writeRule (counting ⟨.ip, nameOfLength 65531⟩ "c" 0) = .ok b ∧
        readRule b = .error (.attributeLength RuleAttr.table 0) := by
  have hlen := utf8ByteSize_nameOfLength 65531
  have hz := nul_not_mem_nameOfLength 65531
  generalize nameOfLength 65531 = name at hlen hz ⊢
  have hn : Wire.Fits (Bytes.ofString name) := by
    rw [Wire.Fits, Bytes.length_ofString, hlen]
    decide
  have hf : ¬Wire.Fits (terminated name) := by
    rw [Wire.Fits, length_terminated, hlen]
    decide
  have hc : '\x00' ∉ "c".toList := by decide
  have ht : (counting ⟨.ip, name⟩ "c" 0).Terminable := ⟨hz, hc, by simp [counting]⟩
  have hb := writeRule_eq_ok_iff.2 ⟨ht, [], rfl, rfl⟩
  exact ⟨readRule_bareMessage hz hn hc (by decide) (by decide), _, hb,
    readRule_error_of_name hn hf hb⟩

end FlowTally
