import FlowTally.Proofs.Matching
import FlowTally.Proofs.Replacement
import FlowTally.Proofs.Refinement
/-!
# Rule sets that host entries

A ledger that is held has a table of its own. A rule set hosts entries (`Layout.Hosts`) if both
chains of the layout have the rules of these entries, whatever else there is in the table. So do the
rule sets that an installation leads to, and from then on packets, raised counts and listings do to
the rules what they do to the entries.
-/

namespace FlowTally

open Kernel (Disturbed)

/-! ## What becomes of chains -/

namespace Ruleset

variable {rs : Ruleset}

theorem findChain?_bump (t : Table) (name label : String) (packets bytes : UInt64) (u : Table)
    (m : String) : (rs.bump t name label packets bytes).1.findChain? u m =
      (rs.findChain? u m).map fun cs =>
        if (u, m) = (t, name) then
          { cs with rules := cs.rules.map (Rule.bumpLabelled label packets bytes) }
        else cs := by
  cases hf : rs.findChain? t name with
  | none =>
    rw [bump_of_none hf]
    by_cases hx : (u, m) = (t, name)
    · cases hx
      rw [hf, Option.map_none]
    · simp [hx]
  | some cs =>
    obtain ⟨hc, P, C, hP⟩ := exists_fill_chain hf
    rw [hP, bump_fill P C hc, findChain?_fill P C hc
      { cs with rules := cs.rules.map (Rule.bumpLabelled label packets bytes) } hc, ← hP]
    by_cases hx : (u, m) = (t, name)
    · cases hx
      rw [if_pos rfl, hf, Option.map_some, if_pos rfl]
    · simp [hx]

theorem findChain?_drain {t : Table} {name : String} {rules : List Rule} {rs' : Ruleset}
    (h : rs.drain t name = .ok (rules, rs')) :
    (∃ cs, rs.findChain? t name = some cs ∧ rules = cs.rules) ∧
    ∀ u m, rs'.findChain? u m = (rs.findChain? u m).map fun cs =>
      if (u, m) = (t, name) then { cs with rules := cs.rules.map Rule.reset } else cs := by
  cases hf : rs.findChain? t name with
  | none =>
    obtain ⟨e, he⟩ := drain_of_none hf
    rw [h] at he
    cases he
  | some cs =>
    obtain ⟨hc, P, C, hP⟩ := exists_fill_chain hf
    rw [hP, drain_fill P C hc] at h
    cases h
    refine ⟨⟨cs, rfl, rfl⟩, fun u m => ?_⟩
    rw [findChain?_fill P C hc { cs with rules := cs.rules.map Rule.reset } hc, ← hP]
    by_cases hx : (u, m) = (t, name)
    · cases hx
      rw [if_pos rfl, hf, Option.map_some, if_pos rfl]
    · simp [hx]

theorem findChain?_deliver (p : Packet) (t : Table) (name : String) :
    (rs.deliver p).1.findChain? t name = (rs.findChain? t name).map fun cs =>
      if t.family.carries p then (cs.deliver p).1 else cs := by
  have hfind : (rs.deliver p).1.find? t = (rs.find? t).map fun s => (s.deliver p).1 := by
    simp only [find?, deliver, List.map_map, List.find?_map, Function.comp_def,
      TableState.table_deliver]
  rw [findChain?, hfind, findChain?]
  cases hf : rs.find? t with
  | none => rfl
  | some s =>
    obtain rfl : s.table = t := by simpa using List.find?_some hf
    rw [Option.map_some, Option.bind_some, Option.bind_some, TableState.find?, TableState.deliver]
    by_cases hp : s.table.family.carries p
    · simp only [hp, if_true, List.map_map, List.find?_map, Function.comp_def,
        ChainState.chain_deliver]
      rfl
    · simp [hp, TableState.find?]

end Ruleset

namespace Entry

/-- Counts a packet that the counter matches. -/
def count (p : Packet) (e : Entry) : Entry :=
  if e.counter.Matches p then { e with packets := e.packets + 1, bytes := e.bytes + p.length }
  else e

@[simp]
theorem counter_count (p : Packet) (e : Entry) : (e.count p).counter = e.counter := by
  unfold count
  split <;> rfl

theorem held_count {chain : Chain} {rules : List Rule} {es : List Entry}
    (h : List.Forall₂ (Held chain) rules es) (p : Packet) :
    List.Forall₂ (Held chain) (rules.map fun r => (p.evaluate r).1) (es.map (count p)) := by
  refine held_map (fun handle e => ⟨handle, ?_⟩) h
  rw [Packet.evaluate_installed, count]
  split <;> rfl

end Entry

/-! ## Entries in their chains -/

namespace Layout

/-- Both chains have the rules of entries, whatever else there is. -/
def Hosts (l : Layout) (rs : Ruleset) (es : Direction → List Entry) : Prop :=
  ∀ d, ∃ rules, rs.findChain? l.table (l.chainName d) = some ⟨l.chain d, rules⟩ ∧
    List.Forall₂ (Entry.Held (l.chain d)) rules (es d)

variable {l : Layout}

theorem chainName_inj (hne : l.inputChain ≠ l.outputChain) {d d' : Direction}
    (h : l.chainName d = l.chainName d') : d = d' := by
  cases d <;> cases d' <;> first | rfl | exact absurd h hne | exact absurd h hne.symm

namespace Hosts

variable {rs rs' : Ruleset} {es : Direction → List Entry}

/-- What is done to the rules of each chain is done to its entries. -/
theorem congr {f : Direction → ChainState → ChainState} {g : Direction → Entry → Entry}
    (h : l.Hosts rs es)
    (hf : ∀ d, rs'.findChain? l.table (l.chainName d) =
      (rs.findChain? l.table (l.chainName d)).map (f d))
    (hg : ∀ d rules, List.Forall₂ (Entry.Held (l.chain d)) rules (es d) →
      ∃ rules', f d ⟨l.chain d, rules⟩ = ⟨l.chain d, rules'⟩ ∧
        List.Forall₂ (Entry.Held (l.chain d)) rules' ((es d).map (g d))) :
    l.Hosts rs' fun d => (es d).map (g d) := by
  intro d
  obtain ⟨rules, hfind, hr⟩ := h d
  obtain ⟨rules', hrules, hr'⟩ := hg d rules hr
  exact ⟨rules', by rw [hf, hfind, Option.map_some, hrules], hr'⟩

theorem bump (h : l.Hosts rs es) (t : Table) (chain label : String) (packets bytes : UInt64) :
    l.Hosts (rs.bump t chain label packets bytes).1 fun d => (es d).map fun e =>
      if (l.table, l.chainName d) = (t, chain) then e.bump label packets bytes else e := by
  refine h.congr (fun d => Ruleset.findChain?_bump ..) fun d rules hr => ?_
  split
  · exact ⟨_, rfl, Entry.held_bump hr label packets bytes⟩
  · exact ⟨rules, rfl, by rwa [List.map_id']⟩

theorem deliver (h : l.Hosts rs es) (p : Packet) :
    l.Hosts (rs.deliver p).1 fun d => (es d).map fun e =>
      if l.family.carries p ∧ p.direction = d then e.count p else e := by
  refine h.congr (fun d => Ruleset.findChain?_deliver ..) fun d rules hr => ?_
  have hhook : ((l.chain d).hook.map Hook.direction = some p.direction) = (p.direction = d) := by
    simp [chain, Chain.base, eq_comm]
  have hfamily : l.table.family = l.family := rfl
  simp only [ChainState.deliver, hhook, hfamily, List.map_map]
  by_cases hp : l.family.carries p <;> by_cases hd : p.direction = d
  · simp only [hp, hd, if_true, and_self]
    exact ⟨_, rfl, Entry.held_count hr p⟩
  all_goals
    simp only [hp, hd, if_true, if_false, and_true, and_false, Bool.false_eq_true]
    exact ⟨rules, rfl, by rwa [List.map_id']⟩

/-! ## Listing -/

variable {s s' : Disturbed}

theorem of_listDirection (hne : l.inputChain ≠ l.outputChain) (h : l.Hosts s.ruleset es)
    {d : Direction} (hw : ∀ e ∈ es d, e.counter.WellFormed l.family) {cs : List Counter}
    (hr : (l.listDirection l.table d).run.run s = (.ok cs, s')) :
    cs = (es d).map (Entry.reading d) ∧
      l.Hosts s'.ruleset fun d' => (es d').map fun e => if d' = d then e.clear else e := by
  have hl := l.listDirection_lists d s
  rw [hr] at hl
  generalize hx : (Except.ok cs, s') = r at hl
  generalize (l.listDirection l.table d).run.drained s = xs at hl
  cases hl with
  | missing hk hn => cases hx
  | failed hk hn => cases hx
  | @read rules s'' hready hb hdrain =>
    obtain ⟨hread, rfl⟩ := Prod.ext_iff.1 hx
    obtain ⟨⟨c, hc, rfl⟩, hafter⟩ := Ruleset.findChain?_drain hdrain
    constructor
    · obtain ⟨rules, hfind, hheld⟩ := h d
      rw [hfind] at hc
      cases hc
      rw [Entry.readCounters_of_held hheld hw] at hread
      exact Except.ok.inj hread
    · refine h.congr (fun d' => hafter ..) fun d' rules hheld => ?_
      by_cases hd : d' = d
      · subst hd
        simp only [if_true]
        exact ⟨_, rfl, Entry.held_reset hheld⟩
      · have hn : l.chainName d' ≠ l.chainName d := fun he => hd (chainName_inj hne he)
        simp only [hd, hn, Prod.mk.injEq, and_false, if_false]
        exact ⟨rules, rfl, by rwa [List.map_id']⟩

/-- A listing that succeeds reads every entry and clears it. -/
theorem of_listCounters (hne : l.inputChain ≠ l.outputChain) (h : l.Hosts s.ruleset es)
    (hw : ∀ d, ∀ e ∈ es d, e.counter.WellFormed l.family) {set : CounterSet}
    (hr : l.listCounters.run.run s = (.ok set, s')) :
    set = Ledger.report es ∧ l.Hosts s'.ruleset fun d => (es d).map Entry.clear := by
  have ht := l.findTable_finds s
  rw [Layout.listCounters, Operation.run_bind] at hr
  generalize l.findTable.run.run s = r at ht hr
  cases ht with
  | missing hk hn => cases hr
  | failed hk hn => cases hr
  | @found s₁ hk hs =>
    rw [← hk.ruleset] at h
    simp only [Operation.run_bind] at hr
    -- The entries of the input chain are clear by the time that the output chain is read.
    generalize hi : (l.listDirection l.table .input).run.run s₁ = r at hr
    obtain ⟨e | input, s₂⟩ := r
    · cases hr
    obtain ⟨hinput, h₂⟩ := h.of_listDirection hne (hw .input) hi
    simp only at hr
    generalize ho : (l.listDirection l.table .output).run.run s₂ = r at hr
    obtain ⟨e | output, s₃⟩ := r
    · cases hr
    have hw₂ : ∀ e ∈ (es .output).map fun e => if Direction.output = .input then e.clear else e,
        e.counter.WellFormed l.family := by simpa using hw .output
    obtain ⟨houtput, h₃⟩ := h₂.of_listDirection hne hw₂ ho
    cases hr
    refine ⟨by simp [Ledger.report, hinput, houtput], ?_⟩
    convert h₃ using 2 with d
    cases d <;> simp

/-! ## Installing -/

/-- An installation leaves entries that have counted nothing. -/
theorem of_setup (hne : l.inputChain ≠ l.outputChain) (hs : s.ruleset.Sound) {set : CounterSet}
    (hr : (l.setup set).run s = (.ok (), s')) :
    l.Hosts s'.ruleset fun d => (set.get d).map fun c => { counter := c } := by
  have hc := l.setup_commits set s
  rw [hr] at hc
  generalize hx : ((.ok (), s') : Except ReconcileError Unit × Disturbed) = r at hc
  cases hc with
  | failed hb hr hk => cases hx
  | committed hb hr hn =>
    cases hx
    obtain ⟨P, cs, hd, -, -, happly⟩ := exists_applyAll_setupEdits hne hs set
    rw [happly] at hn
    injection hn with hn
    intro d
    refine ⟨l.freshRules s.ruleset.lastHandle set d, ?_, ?_⟩
    · rw [← hn, Ruleset.findChain?, Ruleset.find?_fill P rfl, Option.bind_some]
      exact find?_reinstall hne hd _ set d
    · cases d <;> exact Entry.held_fresh _ _ _

end Hosts

end Layout

end FlowTally
