import FlowTally.Proofs.Attributes
import FlowTally.Proofs.Editing
import Mathlib.Algebra.GroupWithZero.Nat
import Mathlib.Data.List.Flatten
import Mathlib.Data.List.Perm.Subperm
/-!
# Rule sets that can come about

Tables keep identities of their own, the chains of a table names of their own, and every chain is
kept under the table it is of (`Ruleset.Sound`), whatever edits are applied, rules read and packets
delivered (`Ruleset.Reachable.sound`). As long as handles do not wrap, no two rules have the same,
and none has one that is still to be given out (`Ruleset.Reachable.numbered`).
-/

namespace FlowTally

open Wire (bind_eq_ok_iff map_eq_ok_iff)

/-! ## Changing the first element -/

section UpdateFirst
variable {α β ε : Type} {p : α → Bool} {missing : ε} {f : α → Except ε α} {as as' : List α}

theorem updateFirst_cons_eq_ok_iff {a : α} : updateFirst p missing f (a :: as) = .ok as' ↔
    (p a = true ∧ ∃ b, f a = .ok b ∧ as' = b :: as) ∨
      (p a = false ∧ ∃ bs, updateFirst p missing f as = .ok bs ∧ as' = a :: bs) := by
  rw [updateFirst]
  cases hp : p a with
  | true =>
    simp only [if_true, true_and, Bool.true_eq_false, false_and, or_false]
    cases f a <;> simp [Except.map, eq_comm]
  | false =>
    simp only [if_false, true_and, Bool.false_eq_true, false_and, false_or]
    cases updateFirst p missing f as <;> simp [Except.map, eq_comm]

theorem mem_of_updateFirst (h : updateFirst p missing f as = .ok as') {b : α} (hb : b ∈ as') :
    b ∈ as ∨ ∃ a ∈ as, p a = true ∧ f a = .ok b := by
  induction as generalizing as' with
  | nil => cases h
  | cons a as ih =>
    rcases updateFirst_cons_eq_ok_iff.1 h with ⟨hp, c, hc, rfl⟩ | ⟨-, bs, hbs, rfl⟩
    · rcases List.mem_cons.1 hb with rfl | hb
      · exact .inr ⟨a, List.mem_cons_self, hp, hc⟩
      · exact .inl (List.mem_cons_of_mem a hb)
    · rcases List.mem_cons.1 hb with rfl | hb
      · exact .inl List.mem_cons_self
      · rcases ih hbs hb with hb | ⟨x, hx, hp, hf⟩
        · exact .inl (List.mem_cons_of_mem a hb)
        · exact .inr ⟨x, List.mem_cons_of_mem a hx, hp, hf⟩

theorem map_updateFirst {g : α → β} (hg : ∀ a b, f a = .ok b → g b = g a)
    (h : updateFirst p missing f as = .ok as') : as'.map g = as.map g := by
  induction as generalizing as' with
  | nil => cases h
  | cons a as ih =>
    rcases updateFirst_cons_eq_ok_iff.1 h with ⟨-, c, hc, rfl⟩ | ⟨-, bs, hbs, rfl⟩
    · rw [List.map_cons, List.map_cons, hg a c hc]
    · rw [List.map_cons, List.map_cons, ih hbs]

/-- What belongs to the elements together grows by what the changed one has gained. -/
theorem subperm_updateFirst {g : α → List β} {new : List β}
    (hg : ∀ a b, f a = .ok b → (g b).Subperm (new ++ g a))
    (h : updateFirst p missing f as = .ok as') :
    (as'.flatMap g).Subperm (new ++ as.flatMap g) := by
  induction as generalizing as' with
  | nil => cases h
  | cons a as ih =>
    rw [List.flatMap_cons]
    rcases updateFirst_cons_eq_ok_iff.1 h with ⟨-, c, hc, rfl⟩ | ⟨-, bs, hbs, rfl⟩
    · rw [List.flatMap_cons, ← List.append_assoc]
      exact (List.subperm_append_right _).2 (hg a c hc)
    · -- what is new joins behind the first element, and comes to the front from there
      have hle : (g a ++ bs.flatMap g).Subperm (g a ++ (new ++ as.flatMap g)) :=
        (List.subperm_append_left _).2 (ih hbs)
      rw [List.flatMap_cons]
      exact hle.trans (List.perm_append_comm_assoc ..).subperm

end UpdateFirst

theorem nodup_map_append_singleton {α β : Type} {g : α → β} {as : List α} {a : α}
    (h : (as.map g).Nodup) (ha : ∀ x ∈ as, g x ≠ g a) : ((as ++ [a]).map g).Nodup := by
  rw [List.map_append, List.nodup_append]
  refine ⟨h, List.nodup_singleton _, ?_⟩
  intro b hb c hc he
  obtain ⟨x, hx, rfl⟩ := List.mem_map.1 hb
  exact ha x hx (he.trans (List.mem_singleton.1 hc))

/-! ## The chains of a table -/

namespace ChainState.Distinct

variable {t : Table} {cs cs' : List ChainState}

theorem congr (h : Distinct t cs) (hc : cs'.map ChainState.chain = cs.map ChainState.chain) :
    Distinct t cs' := by
  constructor
  · intro c hm
    have hm' : c.chain ∈ cs.map ChainState.chain := hc ▸ List.mem_map_of_mem hm
    obtain ⟨x, hx, he⟩ := List.mem_map.1 hm'
    exact he ▸ h.own x hx
  · have hn : cs'.map (·.chain.name) = cs.map (·.chain.name) := by
      have hm := congrArg (List.map Chain.name) hc
      rwa [List.map_map, List.map_map] at hm
    exact hn ▸ h.names

theorem sublist (h : Distinct t cs) (hs : cs'.Sublist cs) : Distinct t cs' :=
  ⟨fun c hc => h.own c (hs.subset hc), h.names.sublist (hs.map _)⟩

/-- A chain of the table joins the others, or takes the place of the one with its name. -/
theorem addChain {ts : TableState} {c : Chain} (h : Distinct c.table ts.chains) :
    Distinct c.table (ts.addChain c).chains := by
  obtain ⟨t, cs⟩ := ts
  rcases TableState.addChain_cases ⟨t, cs⟩ c with ⟨C, s, hname, rfl, hadd⟩ | ⟨hnone, hadd⟩
  · rw [hadd]
    constructor
    · intro x hx
      rcases C.mem_fill.1 hx with rfl | hx
      · rfl
      · exact h.own x (C.mem_fill.2 (.inr hx))
    · have hnames : (C.fill { s with chain := c }).map (·.chain.name) =
          (C.fill s).map (·.chain.name) := by
        simp [Slot.fill, hname]
      exact hnames ▸ h.names
  · rw [hadd]
    constructor
    · intro x hx
      rcases List.mem_append.1 hx with hx | hx
      · exact h.own x hx
      · rw [List.mem_singleton.1 hx]
    · exact nodup_map_append_singleton h.names fun x hx he =>
        List.find?_eq_none.1 hnone x hx (decide_eq_true he)

end ChainState.Distinct

/-- Packets leave a chain in its place. -/
@[simp]
theorem ChainState.chain_deliver (s : ChainState) (p : Packet) :
    (s.deliver p).1.chain = s.chain := by
  unfold deliver
  split <;> rfl

namespace TableState

@[simp]
theorem table_deliver (s : TableState) (p : Packet) : (s.deliver p).1.table = s.table := by
  unfold deliver
  split <;> rfl

theorem table_addChain (s : TableState) (c : Chain) : (s.addChain c).table = s.table := by
  unfold addChain
  split <;> rfl

/-- A chain that can be deleted leaves the others as they are. -/
theorem sublist_of_deleteChain {s s' : TableState} {c : Chain} (h : s.deleteChain c = .ok s') :
    s'.table = s.table ∧ s'.chains.Sublist s.chains := by
  simp only [deleteChain] at h
  split at h
  · cases h
  · split at h
    · cases h
      exact ⟨rfl, List.eraseP_sublist⟩
    · cases h

end TableState

/-! ## Rule sets -/

/-- Tables with identities of their own, each with chains of its own. -/
structure Ruleset.Sound (rs : Ruleset) : Prop where
  identities : (rs.tables.map TableState.table).Nodup
  chains : ∀ t ∈ rs.tables, ChainState.Distinct t.table t.chains

namespace Ruleset.Sound

variable {rs rs' : Ruleset} {t : Table}

/-- A change to the chains of one table. -/
theorem updateTable (hs : rs.Sound) {f : TableState → Except TransportError TableState}
    (htable : ∀ s s', f s = .ok s' → s'.table = s.table)
    (hchains : ∀ s s', s.table = t → ChainState.Distinct t s.chains → f s = .ok s' →
      ChainState.Distinct t s'.chains) (h : rs.updateTable t f = .ok rs') : rs'.Sound := by
  obtain ⟨ts, hu, rfl⟩ := map_eq_ok_iff.1 h
  constructor
  · rw [map_updateFirst htable hu]
    exact hs.identities
  · intro s hm
    rcases mem_of_updateFirst hu hm with hm | ⟨x, hx, hp, hfx⟩
    · exact hs.chains s hm
    · have ht : x.table = t := by simpa using hp
      have hd := hchains x s ht (ht ▸ hs.chains x hx) hfx
      rwa [htable x s hfx, ht]

/-- A change to the rules of one chain. -/
theorem updateChain (hs : rs.Sound) {name : String} {f : ChainState → ChainState}
    (h : rs.updateChain t name f = .ok rs') (hf : ∀ c, (f c).chain = c.chain) : rs'.Sound := by
  refine hs.updateTable (fun s s' h => ?_) (fun s s' _ hd h => ?_) h
  · obtain ⟨cs, -, rfl⟩ := map_eq_ok_iff.1 h
    rfl
  · obtain ⟨cs, hu, rfl⟩ := map_eq_ok_iff.1 h
    refine hd.congr (map_updateFirst (fun a b hab => ?_) hu)
    cases hab
    exact hf a

theorem takeHandle (hs : rs.Sound) : rs.takeHandle.Sound := ⟨hs.identities, hs.chains⟩

theorem addRule (hs : rs.Sound) {r : Rule} (h : rs.addRule r = .ok rs') : rs'.Sound :=
  hs.takeHandle.updateChain h fun _ => rfl

theorem addTable (hs : rs.Sound) (h : rs.find? t = none) :
    Sound { rs with tables := rs.tables ++ [⟨t, []⟩] } := by
  constructor
  · exact nodup_map_append_singleton hs.identities fun s hm he =>
      List.find?_eq_none.1 h s hm (decide_eq_true he)
  · intro s hm
    rcases List.mem_append.1 hm with hm | hm
    · exact hs.chains s hm
    · rw [List.mem_singleton.1 hm]
      exact ⟨by simp, .nil⟩

theorem apply (hs : rs.Sound) {e : Edit} (h : rs.apply e = .ok rs') : rs'.Sound := by
  cases e with
  | addTable u =>
    simp only [Ruleset.apply] at h
    split at h
    · cases h
      exact hs
    · next hf =>
      cases h
      exact hs.addTable (by simpa using hf)
  | addChain c =>
    refine hs.updateTable (fun s s' h => ?_) (fun s s' _ hd h => ?_) h
    · cases h
      exact s.table_addChain c
    · cases h
      exact hd.addChain
  | addRule r => exact hs.addRule h
  | flushChain c => exact hs.updateChain h fun _ => rfl
  | deleteChain c =>
    exact hs.updateTable (fun s s' h => (TableState.sublist_of_deleteChain h).1)
      (fun s s' _ hd h => hd.sublist (TableState.sublist_of_deleteChain h).2) h
  | flushTable u =>
    refine hs.updateTable (fun s s' h => ?_) (fun s s' _ hd h => ?_) h
    · cases h
      rfl
    · cases h
      exact hd.congr (by simp [TableState.flush])
  | deleteTable u =>
    obtain ⟨-, -, rfl⟩ := map_eq_ok_iff.1 h
    constructor
    · exact hs.identities.sublist (List.filter_sublist.map _)
    · exact fun s hm => hs.chains s (List.mem_filter.1 hm).1

theorem drain (hs : rs.Sound) {name : String} {rules : List Rule}
    (h : rs.drain t name = .ok (rules, rs')) : rs'.Sound := by
  obtain ⟨c, -, h⟩ := bind_eq_ok_iff.1 h
  obtain ⟨rs'', hu, h⟩ := bind_eq_ok_iff.1 h
  cases h
  exact hs.updateChain hu fun _ => rfl

theorem bump (hs : rs.Sound) (name label : String) (packets bytes : UInt64) :
    (rs.bump t name label packets bytes).1.Sound := by
  unfold Ruleset.bump
  simp only
  split
  · next h => exact hs.updateChain h fun _ => rfl
  · exact hs

theorem deliver (hs : rs.Sound) (p : Packet) : (rs.deliver p).1.Sound := by
  have hchains (s : TableState) :
      (s.deliver p).1.chains.map ChainState.chain = s.chains.map ChainState.chain := by
    unfold TableState.deliver
    split
    · simp
    · rfl
  constructor
  · have hm : (rs.deliver p).1.tables.map TableState.table = rs.tables.map TableState.table := by
      simp [Ruleset.deliver]
    exact hm ▸ hs.identities
  · intro s hm
    simp only [Ruleset.deliver, List.map_map, List.mem_map] at hm
    obtain ⟨x, hx, rfl⟩ := hm
    exact x.table_deliver p ▸ (hs.chains x hx).congr (hchains x)

theorem applyAll {b : Batch} : ∀ {rs rs' : Ruleset}, rs.Sound → rs.applyAll b = .ok rs' →
    rs'.Sound := by
  induction b with
  | nil =>
    intro rs rs' hs h
    cases h
    exact hs
  | cons e b ih =>
    intro rs rs' hs h
    rw [Ruleset.applyAll, List.foldlM_cons, bind_eq_ok_iff] at h
    obtain ⟨rs₁, h₁, h₂⟩ := h
    exact ih (hs.apply h₁) h₂

end Ruleset.Sound

/-! ## Handles -/

/-- The handles of the chain's rules. -/
def ChainState.handles (s : ChainState) : List UInt64 := s.rules.filterMap Rule.handle

/-- The handles of the rules of the table's chains. -/
def TableState.handles (s : TableState) : List UInt64 := s.chains.flatMap ChainState.handles

/-- How many handles an edit takes. -/
def Edit.taken : Edit → Nat
  | addRule _ => 1
  | _ => 0

/-- How many handles the edits of a batch take. -/
def Batch.taken (b : Batch) : Nat := (b.map Edit.taken).sum

theorem ChainState.handles_map {f : Rule → Rule} (hf : ∀ r, (f r).handle = r.handle)
    (s : ChainState) : handles { s with rules := s.rules.map f } = s.handles := by
  rw [handles, List.filterMap_map]
  exact congrArg (List.filterMap · s.rules) (funext hf)

namespace Ruleset

/-- The handles of all rules. -/
def handles (rs : Ruleset) : List UInt64 := rs.tables.flatMap TableState.handles

/-- Under the last handle of before, rules have handles that they had, and some of the new ones. -/
structure Gains (new : List UInt64) (rs rs' : Ruleset) : Prop where
  lastHandle : rs'.lastHandle = rs.lastHandle
  handles : rs'.handles.Subperm (new ++ rs.handles)

section Gains
variable {rs rs' : Ruleset} {new : List UInt64} {t : Table}

theorem gains_updateTable {f : TableState → Except TransportError TableState}
    (hf : ∀ s s', f s = .ok s' → s'.handles.Subperm (new ++ s.handles))
    (h : rs.updateTable t f = .ok rs') : rs.Gains new rs' := by
  obtain ⟨ts, hu, rfl⟩ := map_eq_ok_iff.1 h
  exact ⟨rfl, subperm_updateFirst hf hu⟩

theorem gains_updateChain {name : String} {f : ChainState → ChainState}
    (hf : ∀ c, (f c).handles.Subperm (new ++ c.handles))
    (h : rs.updateChain t name f = .ok rs') : rs.Gains new rs' := by
  refine gains_updateTable (fun s s' h => ?_) h
  obtain ⟨cs, hu, rfl⟩ := map_eq_ok_iff.1 h
  refine subperm_updateFirst (fun a b hab => ?_) hu
  cases hab
  exact hf a

theorem gains_addRule {r : Rule} (h : rs.addRule r = .ok rs') :
    rs.takeHandle.Gains [rs.lastHandle + 1] rs' := by
  refine gains_updateChain (fun c => ?_) h
  rw [ChainState.handles, List.filterMap_append]
  exact List.perm_append_comm.subperm

/-- An edit that takes no handle gives none to a rule, and one that takes a handle gives that one
to a rule at most. -/
theorem gains_apply {e : Edit} (h : rs.apply e = .ok rs') :
    e.taken = 0 ∧ rs.Gains [] rs' ∨ e.taken = 1 ∧ rs.takeHandle.Gains [rs.lastHandle + 1] rs' := by
  cases e with
  | addRule r => exact .inr ⟨rfl, gains_addRule h⟩
  | addTable u =>
    refine .inl ⟨rfl, ?_⟩
    simp only [apply] at h
    split at h
    · cases h
      exact ⟨rfl, .refl _⟩
    · cases h
      exact ⟨rfl, by simp [handles, TableState.handles, List.Subperm.refl]⟩
  | addChain c =>
    refine .inl ⟨rfl, gains_updateTable (fun s s' h => ?_) h⟩
    cases h
    obtain ⟨t, cs⟩ := s
    rcases TableState.addChain_cases ⟨t, cs⟩ c with ⟨C, x, -, rfl, hadd⟩ | ⟨-, hadd⟩
    · rw [hadd]
      simp [TableState.handles, ChainState.handles, Slot.fill, List.Subperm.refl]
    · rw [hadd]
      simp [TableState.handles, ChainState.handles, List.Subperm.refl]
  | flushChain c => exact .inl ⟨rfl, gains_updateChain (f := fun s => { s with rules := [] })
      (fun _ => List.nil_subperm) h⟩
  | deleteChain c =>
    refine .inl ⟨rfl, gains_updateTable (fun s s' h => ?_) h⟩
    simp only [TableState.deleteChain] at h
    split at h
    · cases h
    · split at h
      · cases h
        exact (List.eraseP_sublist.flatMap _).subperm
      · cases h
  | flushTable u =>
    refine .inl ⟨rfl, gains_updateTable (fun s s' h => ?_) h⟩
    cases h
    have hnone : s.flush.handles = [] := by
      simp [TableState.handles, TableState.flush, ChainState.handles]
    exact hnone ▸ List.nil_subperm
  | deleteTable u =>
    obtain ⟨-, -, rfl⟩ := map_eq_ok_iff.1 h
    exact .inl ⟨rfl, rfl, (List.filter_sublist.flatMap _).subperm⟩

theorem gains_drain {name : String} {rules : List Rule} (h : rs.drain t name = .ok (rules, rs')) :
    rs.Gains [] rs' := by
  obtain ⟨c, -, h⟩ := bind_eq_ok_iff.1 h
  obtain ⟨rs'', hu, h⟩ := bind_eq_ok_iff.1 h
  cases h
  refine gains_updateChain (fun c => ?_) hu
  rw [c.handles_map fun r => show r.reset.handle = r.handle from rfl]
  rfl

theorem gains_bump (rs : Ruleset) (t : Table) (name label : String) (packets bytes : UInt64) :
    rs.Gains [] (rs.bump t name label packets bytes).1 := by
  unfold Ruleset.bump
  simp only
  split
  · next h =>
    refine gains_updateChain (fun c => ?_) h
    rw [ChainState.handles_map fun r => by split <;> rfl]
    rfl
  · exact ⟨rfl, .refl _⟩

theorem gains_deliver (p : Packet) : rs.Gains [] (rs.deliver p).1 := by
  have hchain (c : ChainState) : (c.deliver p).1.handles = c.handles := by
    unfold ChainState.deliver
    split
    · simp only [List.map_map]
      exact c.handles_map fun r => show (p.evaluate r).1.handle = r.handle from rfl
    · rfl
  have htable (s : TableState) : (s.deliver p).1.handles = s.handles := by
    unfold TableState.deliver
    split
    · simp only [TableState.handles, List.flatMap_map, hchain]
    · rfl
  refine ⟨rfl, ?_⟩
  simp only [Ruleset.deliver, handles, List.flatMap_map, htable]
  rfl

end Gains

/-- No two rules have one handle, and none has a handle that is still to be given out. -/
structure Numbered (rs : Ruleset) : Prop where
  distinct : rs.handles.Nodup
  le_last : ∀ h ∈ rs.handles, h ≤ rs.lastHandle

namespace Numbered
variable {rs rs' : Ruleset} {new : List UInt64}

theorem of_gains (hn : (new ++ rs.handles).Nodup)
    (hle : ∀ h ∈ new ++ rs.handles, h ≤ rs.lastHandle) (hg : rs.Gains new rs') : rs'.Numbered := by
  constructor
  · obtain ⟨hs, hperm, hsub⟩ := hg.handles
    exact hperm.nodup_iff.1 (hn.sublist hsub)
  · intro h hh
    rw [hg.lastHandle]
    exact hle h (hg.handles.subset hh)

theorem keep (hn : rs.Numbered) (hg : rs.Gains [] rs') : rs'.Numbered :=
  of_gains hn.distinct hn.le_last hg

theorem lt_of_not_wrapped (hw : rs.lastHandle.toNat + 1 < 2 ^ 64) :
    rs.lastHandle < rs.lastHandle + 1 := by
  rw [UInt64.lt_iff_toNat_lt, UInt64.toNat_add]
  simp only [UInt64.toNat_one]
  omega

theorem take (hn : rs.Numbered) (hw : rs.lastHandle.toNat + 1 < 2 ^ 64)
    (hg : rs.takeHandle.Gains [rs.lastHandle + 1] rs') : rs'.Numbered := by
  have hlt := lt_of_not_wrapped hw
  -- the new handle is above those that rules have, so none of them is the same
  refine of_gains (List.nodup_cons.2 ⟨fun hm => ?_, hn.distinct⟩) ?_ hg
  · exact absurd (hn.le_last _ hm) (UInt64.not_le.2 hlt)
  · intro h hm
    rcases List.mem_cons.1 hm with rfl | hm
    · exact UInt64.le_refl _
    · exact UInt64.le_of_lt (UInt64.lt_of_le_of_lt (hn.le_last h hm) hlt)

theorem apply (hn : rs.Numbered) {e : Edit} (hw : rs.lastHandle.toNat + e.taken < 2 ^ 64)
    (h : rs.apply e = .ok rs') :
    rs'.Numbered ∧ rs'.lastHandle.toNat = rs.lastHandle.toNat + e.taken := by
  rcases gains_apply h with ⟨ht, hg⟩ | ⟨ht, hg⟩ <;> rw [ht] at hw ⊢
  · exact ⟨hn.keep hg, congrArg UInt64.toNat hg.lastHandle⟩
  · refine ⟨hn.take hw hg, ?_⟩
    rw [hg.lastHandle, Ruleset.takeHandle, UInt64.toNat_add]
    exact Nat.mod_eq_of_lt hw

theorem applyAll {b : Batch} : ∀ {rs rs' : Ruleset}, rs.Numbered →
    rs.lastHandle.toNat + b.taken < 2 ^ 64 → rs.applyAll b = .ok rs' → rs'.Numbered := by
  induction b with
  | nil =>
    intro rs rs' hn _ h
    cases h
    exact hn
  | cons e b ih =>
    intro rs rs' hn hw h
    rw [Ruleset.applyAll, List.foldlM_cons, bind_eq_ok_iff] at h
    obtain ⟨rs₁, h₁, h₂⟩ := h
    rw [Batch.taken, List.map_cons, List.sum_cons, ← Batch.taken] at hw
    obtain ⟨hn₁, hlast⟩ := hn.apply (by omega) h₁
    exact ih hn₁ (by omega) h₂

end Numbered

end Ruleset

/-! ## Whatever happens to a kernel -/

/-- The rule sets that edits, readings and packets lead to from none at all, and how many handles
have been given out by then. A rule that could not be added has taken a handle all the same. -/
inductive Ruleset.Reachable : Nat → Ruleset → Prop where
  | empty : Reachable 0 {}
  | applied {n : Nat} {rs rs' : Ruleset} {e : Edit} (h : Reachable n rs)
    (ha : rs.apply e = .ok rs') : Reachable (n + e.taken) rs'
  | drained {n : Nat} {rs rs' : Ruleset} {t : Table} {name : String} {rules : List Rule}
    (h : Reachable n rs) (hd : rs.drain t name = .ok (rules, rs')) : Reachable n rs'
  | bumped {n : Nat} {rs : Ruleset} (h : Reachable n rs) (t : Table) (name label : String)
    (packets bytes : UInt64) : Reachable n (rs.bump t name label packets bytes).1
  | delivered {n : Nat} {rs : Ruleset} (h : Reachable n rs) (p : Packet) :
    Reachable n (rs.deliver p).1
  | handleTaken {n : Nat} {rs : Ruleset} (h : Reachable n rs) : Reachable (n + 1) rs.takeHandle

namespace Ruleset.Reachable
variable {n : Nat} {rs : Ruleset}

theorem sound (h : rs.Reachable n) : rs.Sound := by
  induction h with
  | empty => exact ⟨.nil, by simp⟩
  | applied _ ha ih => exact ih.apply ha
  | drained _ hd ih => exact ih.drain hd
  | bumped _ t name label packets bytes ih => exact ih.bump name label packets bytes
  | delivered _ p ih => exact ih.deliver p
  | handleTaken _ ih => exact ih.takeHandle

/-- Handles say how many there were, unless there were too many. -/
theorem numbered (h : rs.Reachable n) (hn : n < 2 ^ 64) :
    rs.Numbered ∧ rs.lastHandle.toNat = n := by
  induction h with
  | empty => exact ⟨⟨.nil, by simp [handles]⟩, rfl⟩
  | applied _ ha ih =>
    obtain ⟨hnum, hlast⟩ := ih (by omega)
    obtain ⟨hnum', hlast'⟩ := hnum.apply (by omega) ha
    exact ⟨hnum', by rw [hlast', hlast]⟩
  | drained _ hd ih =>
    obtain ⟨hnum, hlast⟩ := ih hn
    have hg := gains_drain hd
    exact ⟨hnum.keep hg, hg.lastHandle ▸ hlast⟩
  | @bumped _ rs _ t name label packets bytes ih =>
    obtain ⟨hnum, hlast⟩ := ih hn
    have hg := gains_bump rs t name label packets bytes
    exact ⟨hnum.keep hg, hg.lastHandle ▸ hlast⟩
  | delivered _ p ih =>
    obtain ⟨hnum, hlast⟩ := ih hn
    exact ⟨hnum.keep (gains_deliver p), hlast⟩
  | @handleTaken n rs _ ih =>
    obtain ⟨hnum, hlast⟩ := ih (by omega)
    refine ⟨hnum.take (by omega) ⟨rfl, List.Subperm.cons_self⟩, ?_⟩
    rw [takeHandle, UInt64.toNat_add, hlast]
    exact Nat.mod_eq_of_lt hn

end Ruleset.Reachable

end FlowTally
