import FlowTally.Proofs.Listing
import FlowTally.Proofs.ReadBack
import Mathlib.Data.List.Forall2
import Mathlib.Logic.Function.Basic
/-!
# Ledgers

All that matters of a table to those who use it: whether it is there, and which counters it has in
which order, with what each has counted since it was read (`Ledger`). A rule set holds a ledger
(`Ledger.Holds`) if the table has the two chains of the layout and nothing else, and in them the
rules of the entries. This is how each operation on a table looks in the rule set that holds its
ledger.
-/

namespace FlowTally

open Kernel (Disturbed)

/-- A counter that is installed, and what it has counted since it was read. -/
structure Entry where
  counter : Counter
  packets : UInt64 := 0
  bytes : UInt64 := 0

namespace Entry

/-- Raises the counts of an entry that has the label. -/
def bump (label : String) (packets bytes : UInt64) (e : Entry) : Entry :=
  if e.counter.label = label then
    { e with packets := e.packets + packets, bytes := e.bytes + bytes }
  else e

def clear (e : Entry) : Entry := { counter := e.counter }

@[simp]
theorem counter_bump (label : String) (packets bytes : UInt64) (e : Entry) :
    (e.bump label packets bytes).counter = e.counter := by
  unfold bump
  split <;> rfl

/-- What is read of an entry in a chain of a direction. -/
def reading (d : Direction) (e : Entry) : Counter :=
  { e.counter with direction := some d, packets := e.packets, bytes := e.bytes }

/-- The rule is the one of the entry, under whatever handle. -/
def Held (chain : Chain) (r : Rule) (e : Entry) : Prop :=
  ∃ handle, r = Rule.installed chain e.counter handle e.packets e.bytes

end Entry

/-- What a table is to those who use it. -/
inductive Ledger where
  | absent
  | installed (entries : Direction → List Entry)

/-! ## Rules of entries -/

namespace Entry

variable {chain : Chain} {rules : List Rule} {es : List Entry}

theorem held_fresh (chain : Chain) (cs : List Counter) : ∀ n : UInt64,
    List.Forall₂ (Held chain) (Rule.fresh chain n cs) (cs.map fun c => { counter := c }) := by
  induction cs with
  | nil => intro n; exact .nil
  | cons c cs ih => intro n; exact .cons ⟨_, rfl⟩ (ih (n + 1))

/-- The rule of an entry is in its place. -/
theorem exists_held (h : List.Forall₂ (Held chain) rules es) : ∀ {i : Nat} {e : Entry},
    es[i]? = some e → ∃ r, rules[i]? = some r ∧ Held chain r e := by
  induction h with
  | nil => simp
  | @cons r e' _ _ h _ ih =>
    intro i e he
    cases i with
    | zero =>
      obtain rfl : e' = e := by simpa using he
      exact ⟨r, rfl, h⟩
    | succ i => exact ih he

/-- Whatever is done to each rule as to its entry. -/
theorem held_map {f : Rule → Rule} {g : Entry → Entry}
    (hf : ∀ handle e,
      Held chain (f (Rule.installed chain e.counter handle e.packets e.bytes)) (g e))
    (h : List.Forall₂ (Held chain) rules es) :
    List.Forall₂ (Held chain) (rules.map f) (es.map g) := by
  rw [List.forall₂_map_left_iff, List.forall₂_map_right_iff]
  refine h.imp fun r e hr => ?_
  obtain ⟨handle, rfl⟩ := hr
  exact hf handle e

theorem held_reset (h : List.Forall₂ (Held chain) rules es) :
    List.Forall₂ (Held chain) (rules.map Rule.reset) (es.map clear) :=
  held_map (fun handle _ => ⟨handle, Rule.reset_installed ..⟩) h

theorem held_bump (h : List.Forall₂ (Held chain) rules es) (label : String)
    (packets bytes : UInt64) : List.Forall₂ (Held chain)
      (rules.map (Rule.bumpLabelled label packets bytes)) (es.map (bump label packets bytes)) := by
  refine held_map (fun handle e => ⟨handle, ?_⟩) h
  by_cases hl : e.counter.label = label
  · simp [Rule.bumpLabelled, bump, hl]
  · simp [Rule.bumpLabelled, bump, hl]

/-- As many counts are raised as there are entries with the label. -/
theorem total_labelled (h : List.Forall₂ (Held chain) rules es) (label : String) :
    total ((rules.filter (·.comment == some label)).map Rule.counterCount) =
      es.countP (·.counter.label = label) := by
  induction h with
  | nil => rfl
  | @cons r e rules es h _ ih =>
    obtain ⟨handle, rfl⟩ := h
    rw [List.filter_cons, Rule.comment_installed, List.countP_cons]
    by_cases hl : e.counter.label = label
    · have ht (ns : List Nat) : total (1 :: ns) = total ns + 1 := Nat.add_comm 1 _
      simp [hl, ht, ih]
    · simp [hl, ih]

theorem readCounters_of_held {family : Family} {name : String} {d : Direction}
    (h : List.Forall₂ (Held chain) rules es) (hw : ∀ e ∈ es, e.counter.WellFormed family) :
    ∀ index : Nat, Layout.readCounters name d index rules = .ok (es.map (reading d)) := by
  induction h with
  | nil => intro index; rfl
  | @cons r e rules es h _ ih =>
    intro index
    obtain ⟨handle, rfl⟩ := h
    have he := hw e List.mem_cons_self
    have hread : (Rule.installed chain e.counter handle e.packets e.bytes).toCounter =
        .ok { e.counter with direction := none, packets := e.packets, bytes := e.bytes } := by
      rw [Rule.toCounter_installed, if_neg (by simp [he.label_ne]), Counter.kept_of_wellFormed he]
    rw [Layout.readCounters, hread]
    simp only
    rw [ih fun e' he' => hw e' (List.mem_cons_of_mem e he')]
    rfl

end Entry

/-! ## The two chains of a layout -/

namespace Layout

variable (l : Layout)

/-- The chains of a table that has nothing else. -/
def chains (rules : Direction → List Rule) : List ChainState :=
  [⟨l.chain .input, rules .input⟩, ⟨l.chain .output, rules .output⟩]

/-- The rules of a set that was installed when `n` handles had been given out. -/
def freshRules (n : UInt64) (set : CounterSet) : Direction → List Rule
  | .input => Rule.fresh (l.chain .input) n set.input
  | .output => Rule.fresh (l.chain .output) (n + .ofNat set.input.length) set.output

variable {l}

/-- Each of the chains is in a place of its own. -/
theorem exists_place (hne : l.inputChain ≠ l.outputChain) (d : Direction)
    (rules : Direction → List Rule) : ∃ C : Chain.Place (l.chainName d),
      ∀ rs, C.fill ⟨l.chain d, rs⟩ = l.chains (Function.update rules d rs) := by
  cases d with
  | input =>
    exact ⟨⟨[], [⟨l.chain .output, rules .output⟩], fun _ h => absurd h List.not_mem_nil⟩,
      fun rs => by simp [Slot.fill, chains]⟩
  | output =>
    refine ⟨⟨[⟨l.chain .input, rules .input⟩], [], fun c hc => ?_⟩,
      fun rs => by simp [Slot.fill, chains]⟩
    rw [List.mem_singleton.1 hc]
    exact decide_eq_false hne

theorem distinct_chains (hne : l.inputChain ≠ l.outputChain) (rules : Direction → List Rule) :
    ChainState.Distinct l.table (l.chains rules) := by
  constructor
  · intro c hc
    simp only [chains, List.mem_cons, List.not_mem_nil, or_false] at hc
    rcases hc with rfl | rfl <;> rfl
  · have hn : (l.chain .input).name ≠ (l.chain .output).name := hne
    simp [chains, hn]

/-- Replacing both of two chains, or adding both, leaves two chains in the same order. -/
theorem reinstall_chains (n : UInt64) (set : CounterSet) (rules : Direction → List Rule) :
    l.reinstall n set (l.chains rules) = l.chains (l.freshRules n set) := by
  have hi : (l.chain .input).name = l.chainName .input := rfl
  have ho : (l.chain .output).name = l.chainName .output := rfl
  simp [reinstall, rebuild, chains, freshRules, hi, ho]

theorem reinstall_nil (hne : l.inputChain ≠ l.outputChain) (n : UInt64) (set : CounterSet) :
    l.reinstall n set [] = l.chains (l.freshRules n set) := by
  have hi : (l.chain .input).name = l.chainName .input := rfl
  have hn : l.chainName .input ≠ l.chainName .output := hne
  simp [reinstall, rebuild, chains, freshRules, hi, hn]

end Layout

/-! ## Rule sets that hold a ledger -/

namespace Ledger

/-- The rule set holds what the ledger says, whatever else is in it. -/
inductive Holds (l : Layout) (rs : Ruleset) : Ledger → Prop where
  | absent (h : rs.find? l.table = none) : Holds l rs .absent
  | installed {rules : Direction → List Rule} {es : Direction → List Entry}
    (h : rs.find? l.table = some ⟨l.table, l.chains rules⟩)
    (hr : ∀ d, List.Forall₂ (Entry.Held (l.chain d)) (rules d) (es d))
    (hw : ∀ d, ∀ e ∈ es d, e.counter.WellFormed l.family) : Holds l rs (.installed es)

/-- What is in the ledger after a set has been installed. -/
def fresh (set : CounterSet) : Ledger :=
  .installed fun d => (set.get d).map fun c => { counter := c }

variable {l : Layout} {rs : Ruleset}

theorem Holds.congr {rs' : Ruleset} {a : Ledger} (h : a.Holds l rs)
    (hf : rs'.find? l.table = rs.find? l.table) : a.Holds l rs' := by
  cases h with
  | absent h => exact .absent (hf.trans h)
  | installed h hr hw => exact .installed (hf.trans h) hr hw

/-- Whatever ledger a rule set holds, an installation goes through. -/
theorem Holds.install (hne : l.inputChain ≠ l.outputChain) {a : Ledger} (h : a.Holds l rs)
    (set : CounterSet) : ∃ rs', rs.applyAll (l.setupEdits rs set) = .ok rs' ∧
      rs'.find? l.table = some ⟨l.table, l.chains (l.freshRules rs.lastHandle set)⟩ := by
  cases h with
  | absent h =>
    refine ⟨_, Layout.applyAll_setupEdits_of_none hne h set, ?_⟩
    rw [Layout.reinstall_nil hne]
    exact (Slot.last rs.tables h).find?_fill (decide_eq_true rfl)
  | @installed rules _ h hr hw =>
    obtain ⟨-, P, hP⟩ := Ruleset.exists_fill h
    have happly := Layout.applyAll_setupEdits hne P (Layout.distinct_chains hne rules)
      rs.lastHandle set
    rw [← hP, Layout.reinstall_chains] at happly
    exact ⟨_, happly, Ruleset.find?_fill P rfl⟩

theorem holds_fresh {n : UInt64} {set : CounterSet} (hs : set.Accepted l.family)
    (h : rs.find? l.table = some ⟨l.table, l.chains (l.freshRules n set)⟩) :
    (fresh set).Holds l rs := by
  refine .installed h (fun d => ?_) fun d e he => ?_
  · cases d with
    | input => exact Entry.held_fresh _ _ n
    | output => exact Entry.held_fresh _ _ _
  · obtain ⟨c, hc, rfl⟩ := List.mem_map.1 he
    exact hs.wellFormed d c hc

variable {es : Direction → List Entry}

theorem mem_update {d d' : Direction} {e : Entry} {xs : List Entry}
    (h : e ∈ Function.update es d xs d') : e ∈ xs ∨ e ∈ es d' := by
  by_cases hd : d' = d
  · subst hd
    rw [Function.update_self] at h
    exact .inl h
  · rw [Function.update_of_ne hd] at h
    exact .inr h

/-- A rule set with one of the chains of a ledger in its place. -/
theorem Holds.chain (hne : l.inputChain ≠ l.outputChain) (h : (Ledger.installed es).Holds l rs)
    (d : Direction) : ∃ (P : l.table.Place) (C : Chain.Place (l.chainName d)) (rules : List Rule),
      rs = ⟨P.fill ⟨l.table, C.fill ⟨l.chain d, rules⟩⟩, rs.lastHandle⟩ ∧
      List.Forall₂ (Entry.Held (l.chain d)) rules (es d) ∧
      (∀ e ∈ es d, e.counter.WellFormed l.family) ∧
      ∀ rules' xs, List.Forall₂ (Entry.Held (l.chain d)) rules' xs →
        (∀ e ∈ xs, e.counter.WellFormed l.family) →
        (Ledger.installed (Function.update es d xs)).Holds l
          ⟨P.fill ⟨l.table, C.fill ⟨l.chain d, rules'⟩⟩, rs.lastHandle⟩ := by
  cases h with
  | @installed rules _ h hr hw =>
    obtain ⟨-, P, hP⟩ := Ruleset.exists_fill h
    obtain ⟨C, hC⟩ := Layout.exists_place hne d rules
    refine ⟨P, C, rules d, ?_, hr d, hw d, fun rules' xs hx hxw => ?_⟩
    · rw [hC, Function.update_eq_self]
      exact hP
    · rw [hC]
      refine .installed (Ruleset.find?_fill P rfl) (fun d' => ?_) fun d' e he => ?_
      · by_cases hd : d' = d
        · subst hd
          simpa using hx
        · simpa [hd] using hr d'
      · exact (mem_update he).elim (hxw e) (hw d' e)

/-- Reading a chain clears its entries and gives their rules. -/
theorem Holds.drain (hne : l.inputChain ≠ l.outputChain) (h : (Ledger.installed es).Holds l rs)
    (d : Direction) : ∃ rules rs', rs.drain l.table (l.chainName d) = .ok (rules, rs') ∧
      (∀ index, Layout.readCounters (l.chainName d) d index rules =
        .ok ((es d).map (Entry.reading d))) ∧
      (Ledger.installed (Function.update es d ((es d).map Entry.clear))).Holds l rs' := by
  obtain ⟨P, C, rules, hrs, hr, hw, hafter⟩ := h.chain hne d
  refine ⟨rules, _, ?_, Entry.readCounters_of_held hr hw, hafter _ _ (Entry.held_reset hr) ?_⟩
  · conv_lhs => rw [hrs]
    exact Ruleset.drain_fill P C rfl
  · intro e he
    obtain ⟨e', he', rfl⟩ := List.mem_map.1 he
    exact hw e' he'

/-- Raising counts in a chain raises those of the entries with the label. -/
theorem Holds.bump (hne : l.inputChain ≠ l.outputChain) (h : (Ledger.installed es).Holds l rs)
    (d : Direction) (label : String) (packets bytes : UInt64) :
    (rs.bump l.table (l.chainName d) label packets bytes).2 =
      (es d).countP (·.counter.label = label) ∧
    (Ledger.installed (Function.update es d ((es d).map (Entry.bump label packets bytes)))).Holds l
      (rs.bump l.table (l.chainName d) label packets bytes).1 := by
  obtain ⟨P, C, rules, hrs, hr, hw, hafter⟩ := h.chain hne d
  have hb : rs.bump l.table (l.chainName d) label packets bytes = _ :=
    (congrArg (·.bump l.table (l.chainName d) label packets bytes) hrs).trans
      (Ruleset.bump_fill P C rfl label packets bytes)
  rw [hb]
  refine ⟨Entry.total_labelled hr label, hafter _ _ (Entry.held_bump hr label packets bytes) ?_⟩
  intro e he
  obtain ⟨e', he', rfl⟩ := List.mem_map.1 he
  rw [Entry.counter_bump]
  exact hw e' he'

/-- There is no other chain to raise counts in. -/
theorem Holds.bump_elsewhere {a : Ledger} (h : a.Holds l rs) {chain : String}
    (hc : a = .absent ∨ ∀ d, l.chainName d ≠ chain) (label : String) (packets bytes : UInt64) :
    rs.bump l.table chain label packets bytes = (rs, 0) := by
  refine Ruleset.bump_of_none ?_ label packets bytes
  cases h with
  | absent h => rw [Ruleset.findChain?, h, Option.bind_none]
  | @installed rules _ h hr hw =>
    have hn (d : Direction) : l.chainName d ≠ chain := hc.elim (fun h => by cases h) fun h => h d
    have hi : (l.chain .input).name ≠ chain := hn .input
    have ho : (l.chain .output).name ≠ chain := hn .output
    rw [Ruleset.findChain?, h, Option.bind_some]
    simp [TableState.find?, Layout.chains, hi, ho]

end Ledger

end FlowTally
