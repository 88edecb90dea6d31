import FlowTally.Proofs.Draining
import FlowTally.Proofs.Ledger
import FlowTally.Proofs.Reachable
/-!
# What an installation replaces

Where no call is made to fail, an installation commits once and leads to where its edits lead
(`Layout.setup_run`): each direction has its chain with the rules of the set under the next handles
(`Layout.find?_reinstall`), the other chains of the table are as they were
(`Layout.filter_reinstall`), and so are the other tables.
-/

namespace FlowTally

open Kernel (Client)

/-! ## Calls that go through -/

namespace Kernel

variable {k : Kernel} {f : Fault}

theorem check_of_ready (h : k.Ready f) : k.check f = (.ok (), k) := by
  rw [check, if_neg (by simp [h.1]), if_pos h.2]

end Kernel

section Calls
variable {k : Kernel} (hr : ∀ f, k.Ready f) (b : Batch)
include hr

theorem lookupTable_of_ready (family : Family) (name : String) :
    Transport.lookupTable family name (⟨k, b⟩ : Client) =
      ((k.ruleset.findTable ⟨family, name⟩).map TableState.table, ⟨k, b⟩) := by
  have hk : k.lookupTable family name =
      ((k.ruleset.findTable ⟨family, name⟩).map TableState.table, k) := by
    rw [Kernel.lookupTable, Kernel.check_of_ready (hr _)]
  change ((k.lookupTable family name).1, (⟨(k.lookupTable family name).2, b⟩ : Client)) = _
  rw [hk]

theorem lookupChain_of_ready (t : Table) (name : String) :
    Transport.lookupChain t name (⟨k, b⟩ : Client) =
      ((k.ruleset.findChain t name).map ChainState.chain, ⟨k, b⟩) := by
  have hk : k.lookupChain t name = ((k.ruleset.findChain t name).map ChainState.chain, k) := by
    rw [Kernel.lookupChain, Kernel.check_of_ready (hr _)]
  change ((k.lookupChain t name).1, (⟨(k.lookupChain t name).2, b⟩ : Client)) = _
  rw [hk]

theorem commit_of_ready {rs : Ruleset} (h : k.ruleset.applyAll b = .ok rs) :
    Transport.commit (⟨k, b⟩ : Client) =
      (.ok (), ⟨{ k with ruleset := rs, commits := k.commits + 1 }, []⟩) := by
  have hk : k.commit b = (.ok (), { k with ruleset := rs, commits := k.commits + 1 }) := by
    simp only [Kernel.commit, Kernel.check_of_ready (hr _), h]
  change ((k.commit b).1, (⟨(k.commit b).2, []⟩ : Client)) = _
  rw [hk]

namespace Layout

variable (l : Layout)

end Layout

end Calls

/-! ## Fresh rules -/

namespace Rule

variable (chain : Chain) (cs : List Counter)

theorem map_withoutHandle_fresh (n : UInt64) :
    (fresh chain n cs).map withoutHandle = cs.map (ofCounter chain) := by
  induction cs generalizing n with
  | nil => rfl
  | cons c cs ih =>
    rw [fresh, List.map_cons, List.map_cons, ih]
    rfl

/-- Handles are given out one after the other. -/
theorem map_handle_fresh (n : UInt64) : (fresh chain n cs).map handle =
    (List.range cs.length).map fun i => some (n + .ofNat (i + 1)) := by
  induction cs generalizing n with
  | nil => rfl
  | cons c cs ih =>
    rw [fresh, List.map_cons, ih, List.length_cons, List.range_succ_eq_map, List.map_cons,
      List.map_map]
    congr 1
    refine List.map_congr_left fun i _ => ?_
    simp only [Function.comp_apply, Option.some.injEq]
    rw [UInt64.ofNat_add (i + 1) 1, UInt64.add_comm (.ofNat (i + 1)), ← UInt64.add_assoc]
    rfl

theorem idle_of_mem_fresh (n : UInt64) : ∀ r ∈ fresh chain n cs, r.Idle := by
  induction cs generalizing n with
  | nil => simp [fresh]
  | cons c cs ih =>
    rw [fresh, List.forall_mem_cons]
    exact ⟨reset_eq_self_iff.1 (reset_installed ..), ih (n + 1)⟩

theorem ofCounters_filter (input output : Chain) (set : CounterSet) (d : Direction) :
    ((ofCounters input output set).filter (·.1 = d)).map Prod.snd =
      (set.get d).map (ofCounter (match d with | .input => input | .output => output)) := by
  cases d <;>
    simp [ofCounters, CounterSet.toList, CounterSet.get, List.filter_map, Function.comp_def]

end Rule

/-! ## The chains of the table -/

namespace Layout

variable {l : Layout} {cs : List ChainState}

theorem find?_rebuild (h : ChainState.Distinct l.table cs) (d : Direction) (n : UInt64)
    (counters : List Counter) : (l.rebuild d n counters cs).find? (·.chain.name = l.chainName d) =
      some ⟨l.chain d, Rule.fresh (l.chain d) n counters⟩ := by
  have hn : (l.chain d).name = l.chainName d := rfl
  rw [rebuild, List.find?_append, h.find?_eraseP, Option.none_or, List.find?_cons_of_pos]
  exact decide_eq_true hn

/-- Each direction has its chain with fresh rules. -/
theorem find?_reinstall (hne : l.inputChain ≠ l.outputChain) (h : ChainState.Distinct l.table cs)
    (n : UInt64) (set : CounterSet) (d : Direction) :
    (l.reinstall n set cs).find? (·.chain.name = l.chainName d) =
      some ⟨l.chain d, l.freshRules n set d⟩ := by
  cases d with
  | input =>
    rw [reinstall, l.find?_rebuild_of_ne hne]
    exact find?_rebuild h .input n set.input
  | output => exact find?_rebuild (h.rebuild .input n set.input) .output _ set.output

theorem filter_rebuild {p : ChainState → Bool} {d : Direction}
    (hp : ∀ s : ChainState, s.chain.name = l.chainName d → p s = false) (n : UInt64)
    (counters : List Counter) (cs : List ChainState) :
    (l.rebuild d n counters cs).filter p = cs.filter p := by
  have hlast : p ⟨l.chain d, Rule.fresh (l.chain d) n counters⟩ = false := hp _ rfl
  rw [rebuild, List.filter_append, List.filter_cons_of_neg (by simp [hlast]), List.filter_nil,
    List.append_nil]
  cases hf : cs.find? (·.chain.name = l.chainName d) with
  | none => rw [List.eraseP_of_forall_not fun c hc => List.find?_eq_none.1 hf c hc]
  | some c =>
    have hc : c.chain.name = l.chainName d := by simpa using List.find?_some hf
    obtain ⟨C, rfl⟩ := Slot.exists_fill hf
    rw [C.eraseP_fill (by simpa using hc), Slot.fill, List.filter_append, List.filter_append,
      List.filter_cons_of_neg (by simp [hp c hc])]

/-- A chain of neither direction. -/
def foreign (l : Layout) (s : ChainState) : Bool :=
  s.chain.name ≠ l.inputChain ∧ s.chain.name ≠ l.outputChain

theorem filter_reinstall (n : UInt64) (set : CounterSet) (cs : List ChainState) :
    (l.reinstall n set cs).filter l.foreign = cs.filter l.foreign := by
  have hforeign (d : Direction) (s : ChainState) (hs : s.chain.name = l.chainName d) :
      l.foreign s = false := by
    cases d <;> simp_all [foreign, chainName]
  rw [reinstall, filter_rebuild (hforeign .output), filter_rebuild (hforeign .input)]

/-! ## The rules of both directions -/

theorem map_withoutHandle_freshRules (n : UInt64) (set : CounterSet) (d : Direction) :
    (l.freshRules n set d).map Rule.withoutHandle =
      ((Rule.ofCounters (l.chain .input) (l.chain .output) set).filter (·.1 = d)).map Prod.snd := by
  rw [Rule.ofCounters_filter]
  cases d <;> exact Rule.map_withoutHandle_fresh _ _ _

theorem idle_of_mem_freshRules (n : UInt64) (set : CounterSet) (d : Direction) :
    ∀ r ∈ l.freshRules n set d, r.Idle := by
  cases d <;> exact Rule.idle_of_mem_fresh _ _ _

/-- The handles of the output rules follow those of the input rules. -/
theorem map_handle_freshRules (n : UInt64) (set : CounterSet) :
    (Direction.all.flatMap (l.freshRules n set)).map Rule.handle =
      (List.range set.size).map fun i => some (n + .ofNat (i + 1)) := by
  have hoffset (i : Nat) : n + .ofNat set.input.length + .ofNat (i + 1) =
      n + .ofNat (set.input.length + i + 1) := by
    rw [UInt64.add_assoc, ← UInt64.ofNat_add, Nat.add_assoc]
  simp only [Direction.all, List.flatMap_cons, List.flatMap_nil, List.append_nil, freshRules,
    List.map_append, Rule.map_handle_fresh, CounterSet.size, List.range_add, List.map_map,
    Function.comp_def, hoffset]

/-- Handles do not come again as long as they do not wrap. -/
theorem lt_of_mem_freshRules {n h : UInt64} {set : CounterSet}
    (hsize : n.toNat + set.size < 2 ^ 64) {d : Direction} {r : Rule}
    (hr : r ∈ l.freshRules n set d) (hh : r.handle = some h) : n < h := by
  have hm : r.handle ∈ (Direction.all.flatMap (l.freshRules n set)).map Rule.handle :=
    List.mem_map_of_mem (List.mem_flatMap.2 ⟨d, by cases d <;> decide, hr⟩)
  rw [map_handle_freshRules, hh] at hm
  obtain ⟨i, hi, he⟩ := List.mem_map.1 hm
  have hi := List.mem_range.1 hi
  injection he with he
  rw [← he, UInt64.lt_iff_toNat_lt, UInt64.toNat_add, UInt64.toNat_ofNat']
  omega

end Layout

/-! ## The rule set -/

namespace Ruleset

/-- The chains of a table, with their rules. -/
def chainStates (rs : Ruleset) (t : Table) : List ChainState :=
  ((rs.find? t).map TableState.chains).getD []

end Ruleset

/-- What an installation makes of a rule set. -/
structure Layout.Replaces (l : Layout) (set : CounterSet) (rs rs' : Ruleset) : Prop where
  sound : rs'.Sound
  table : (rs'.find? l.table).isSome
  chain : ∀ d, (rs'.findChain? l.table (l.chainName d)).map ChainState.chain = some (l.chain d)
  rules : ∀ d, (rs'.rules l.table (l.chainName d)).map Rule.withoutHandle =
    ((Rule.ofCounters (l.chain .input) (l.chain .output) set).filter (·.1 = d)).map Prod.snd
  idle : ∀ d, ∀ r ∈ rs'.rules l.table (l.chainName d), r.Idle
  handles : (Direction.all.flatMap fun d => rs'.rules l.table (l.chainName d)).map Rule.handle =
    (List.range set.size).map fun i => some (rs.lastHandle + .ofNat (i + 1))
  numbered : rs.Numbered → rs.lastHandle.toNat + set.size < 2 ^ 64 → rs'.Numbered
  fresh : rs.Numbered → rs.lastHandle.toNat + set.size < 2 ^ 64 →
    ∀ d, ∀ r ∈ rs'.rules l.table (l.chainName d), ∀ h ∈ r.handle, h ∉ rs.handles
  chains : (rs'.chainStates l.table).filter l.foreign = (rs.chainStates l.table).filter l.foreign
  tables : rs'.tables.filter (·.table ≠ l.table) = rs.tables.filter (·.table ≠ l.table)

namespace Layout

variable {l : Layout} {rs : Ruleset}

/-- Each rule takes a handle, and nothing else does. -/
theorem taken_setupEdits (rs : Ruleset) (set : CounterSet) :
    Batch.taken (l.setupEdits rs set) = set.size := by
  have hrules (d : Direction) (cs : List Counter) :
      Batch.taken (l.directionEdits rs d cs) = cs.length := by
    unfold directionEdits chainEdits Batch.taken
    cases (rs.findChain? l.table (l.chainName d)).map ChainState.chain <;>
      simp [Edit.taken, Function.comp_def]
  have htable : Batch.taken (l.tableEdits rs) = 0 := by
    unfold tableEdits
    split <;> rfl
  unfold Batch.taken at hrules htable
  rw [Batch.taken, setupEdits, List.map_append, List.map_append, List.sum_append, List.sum_append,
    htable, hrules, hrules, Nat.zero_add]
  rfl

/-- The edits of an installation put both chains into the table, which is where it was or behind
the others. -/
theorem exists_applyAll_setupEdits (hne : l.inputChain ≠ l.outputChain) (hs : rs.Sound)
    (set : CounterSet) : ∃ (P : l.table.Place) (cs : List ChainState),
      ChainState.Distinct l.table cs ∧ rs.chainStates l.table = cs ∧
      rs.tables.filter (·.table ≠ l.table) = (P.before ++ P.after).filter (·.table ≠ l.table) ∧
      rs.applyAll (l.setupEdits rs set) = .ok ⟨P.fill ⟨l.table, l.reinstall rs.lastHandle set cs⟩,
        rs.lastHandle + .ofNat set.input.length + .ofNat set.output.length⟩ := by
  cases hf : rs.find? l.table with
  | none =>
    refine ⟨Slot.last rs.tables hf, [], ⟨by simp, .nil⟩, by simp [Ruleset.chainStates, hf], ?_,
      applyAll_setupEdits_of_none hne hf set⟩
    exact congrArg _ (List.append_nil rs.tables).symm
  | some ts =>
    obtain ⟨ht, P, hP⟩ := Ruleset.exists_fill hf
    have hd : ChainState.Distinct l.table ts.chains :=
      ht ▸ hs.chains ts (List.mem_of_find?_eq_some hf)
    have hts : ts = ⟨l.table, ts.chains⟩ := by rw [← ht]
    refine ⟨P, ts.chains, hd, by simp [Ruleset.chainStates, hf], ?_, ?_⟩
    · rw [hP, Slot.fill, List.filter_append, List.filter_cons_of_neg (by simp [ht]),
        ← List.filter_append]
    · have happly := applyAll_setupEdits hne P hd rs.lastHandle set
      rw [← hts, ← hP] at happly
      exact happly

theorem exists_replaces (hne : l.inputChain ≠ l.outputChain) (hs : rs.Sound) (set : CounterSet) :
    ∃ rs', rs.applyAll (l.setupEdits rs set) = .ok rs' ∧ l.Replaces set rs rs' := by
  obtain ⟨P, cs, hd, hcs, htables, happly⟩ := exists_applyAll_setupEdits hne hs set
  have hsound := hs.applyAll happly
  refine ⟨_, happly, ?_⟩
  generalize rs.lastHandle + .ofNat set.input.length + .ofNat set.output.length = n
    at hsound happly ⊢
  have hfind : (⟨P.fill ⟨l.table, l.reinstall rs.lastHandle set cs⟩, n⟩ : Ruleset).find? l.table =
      some ⟨l.table, l.reinstall rs.lastHandle set cs⟩ := Ruleset.find?_fill P rfl
  have hchain (d : Direction) : (⟨P.fill ⟨l.table, l.reinstall rs.lastHandle set cs⟩, n⟩ :
      Ruleset).findChain? l.table (l.chainName d) =
        some ⟨l.chain d, l.freshRules rs.lastHandle set d⟩ := by
    rw [Ruleset.findChain?, hfind, Option.bind_some]
    exact find?_reinstall hne hd rs.lastHandle set d
  have hrules (d : Direction) : (⟨P.fill ⟨l.table, l.reinstall rs.lastHandle set cs⟩, n⟩ :
      Ruleset).rules l.table (l.chainName d) = l.freshRules rs.lastHandle set d := by
    rw [Ruleset.rules_eq_getD, hchain]
    rfl
  exact {
    sound := hsound
    table := by rw [hfind]; rfl
    chain := fun d => by rw [hchain]; rfl
    rules := fun d => by rw [hrules]; exact map_withoutHandle_freshRules _ set d
    idle := fun d => by rw [hrules]; exact idle_of_mem_freshRules _ set d
    handles := by simp only [hrules]; exact map_handle_freshRules _ set
    numbered := fun hn hsize => hn.applyAll (by rwa [taken_setupEdits]) happly
    fresh := fun hn hsize d r hr h hh hm => by
      rw [hrules] at hr
      exact absurd (hn.le_last h hm) (UInt64.not_le.2 (lt_of_mem_freshRules hsize hr hh))
    chains := by
      rw [hcs, Ruleset.chainStates, hfind]
      exact filter_reinstall _ set cs
    tables := by
      rw [htables, Slot.fill, List.filter_append, List.filter_cons_of_neg (by simp),
        ← List.filter_append] }

end Layout

end FlowTally
