import FlowTally.Proofs.Replacement
/-!
# Installations that are overtaken

An installation decides what to empty and delete when it looks chains up, and another one may commit
before it does. What it then stages still applies (`Layout.exists_overtakes`). A chain that it found
is replaced, whoever has replaced it since; one that it did not find is left as it is, and its rules
come behind those of the other.
-/

namespace FlowTally

/-! ## Edits of a chain that has changed -/

namespace Ruleset

/-- The edits that empty and delete a chain go by its table and name only. -/
theorem apply_congr_of_name {c c' : Chain} (ht : c.table = c'.table) (hn : c.name = c'.name)
    (rs : Ruleset) : rs.apply (.flushChain c) = rs.apply (.flushChain c') ∧
      rs.apply (.deleteChain c) = rs.apply (.deleteChain c') := by
  have htext : c.text = c'.text := by rw [Chain.text, Chain.text, ht, hn]
  have hdelete (s : TableState) : s.deleteChain c = s.deleteChain c' := by
    simp only [TableState.deleteChain, hn, htext]
  constructor
  · rw [apply, apply, ht, hn]
  · rw [apply, apply, ht]
    simp only [hdelete]

end Ruleset

/-- A chain that is found has the table and the name that it was looked up by. -/
theorem Ruleset.name_of_findChain? {rs : Ruleset} (hs : rs.Sound) {t : Table} {name : String}
    {s : ChainState} (h : rs.findChain? t name = some s) :
    s.chain.table = t ∧ s.chain.name = name := by
  obtain ⟨ts, hts, hfind⟩ := Option.bind_eq_some_iff.1 h
  have ht : ts.table = t := by simpa using List.find?_some hts
  have hd := hs.chains ts (List.mem_of_find?_eq_some hts)
  exact ⟨ht ▸ hd.own s (List.mem_of_find?_eq_some hfind), by simpa using List.find?_some hfind⟩

namespace Layout

variable {l : Layout}

/-- The edits of a direction whose chain is there by now, in the chains as they were when it was
looked up. -/
theorem applyAll_directionEdits_late (P : l.table.Place) {cs : List ChainState}
    (h : ChainState.Distinct l.table cs) (n : UInt64) (d : Direction) (counters : List Counter)
    {seen : Ruleset} (hseen : seen.Sound) {rules : List Rule}
    (hs : cs.find? (·.chain.name = l.chainName d) = some ⟨l.chain d, rules⟩) :
    ∃ cs', (⟨P.fill ⟨l.table, cs⟩, n⟩ : Ruleset).applyAll (l.directionEdits seen d counters) =
        .ok ⟨P.fill ⟨l.table, cs'⟩, n + .ofNat counters.length⟩ ∧
      ChainState.Distinct l.table cs' ∧
      cs'.find? (·.chain.name = l.chainName d) = some ⟨l.chain d,
        (if seen.findChain? l.table (l.chainName d) = none then rules else []) ++
          Rule.fresh (l.chain d) n counters⟩ ∧
      ∀ name ≠ l.chainName d,
        cs'.find? (·.chain.name = name) = cs.find? (·.chain.name = name) := by
  unfold directionEdits
  cases hf : seen.findChain? l.table (l.chainName d) with
  | none =>
    -- the chain is added as it is, and the rules come behind those in it
    obtain ⟨C, rfl⟩ := Slot.exists_fill hs
    have hadd : TableState.addChain ⟨l.table, C.fill ⟨l.chain d, rules⟩⟩ (l.chain d) =
        ⟨l.table, C.fill ⟨l.chain d, rules⟩⟩ :=
      TableState.addChain_fill (c := l.chain d) C (s := ⟨l.chain d, rules⟩) rfl
    have hchain : (⟨P.fill ⟨l.table, C.fill ⟨l.chain d, rules⟩⟩, n⟩ : Ruleset).apply
        (.addChain (l.chain d)) = .ok ⟨P.fill ⟨l.table, C.fill ⟨l.chain d, rules⟩⟩, n⟩ := by
      refine (Ruleset.updateTable_fill P rfl _).trans ?_
      rw [hadd]
      rfl
    refine ⟨C.fill ⟨l.chain d, rules ++ Rule.fresh (l.chain d) n counters⟩, ?_, ?_, ?_, ?_⟩
    · refine (Ruleset.applyAll_cons hchain _).trans ?_
      exact Ruleset.applyAll_addRules_fill (l.chain d) P C counters rules n
    · exact h.congr (by simp [Slot.fill])
    · exact C.find?_fill (decide_eq_true rfl)
    · intro name hname
      have hother : decide ((l.chain d).name = name) = false := decide_eq_false hname.symm
      exact C.find?_fill_congr hother hother
  | some s =>
    -- what is emptied and deleted is whatever has the chain's name now
    obtain ⟨ht, hn⟩ := Ruleset.name_of_findChain? hseen hf
    have hexisting : l.existing d cs = some (l.chain d) := by rw [existing, hs]; rfl
    have hsame : (⟨P.fill ⟨l.table, cs⟩, n⟩ : Ruleset).applyAll
        (l.chainEdits d (some s.chain) counters) = (⟨P.fill ⟨l.table, cs⟩, n⟩ : Ruleset).applyAll
          (l.chainEdits d (some (l.chain d)) counters) := by
      have hc : ∀ rs : Ruleset, rs.apply (.flushChain s.chain) = rs.apply (.flushChain (l.chain d)) ∧
          rs.apply (.deleteChain s.chain) = rs.apply (.deleteChain (l.chain d)) :=
        Ruleset.apply_congr_of_name ht hn
      simp only [Ruleset.applyAll, chainEdits, List.cons_append, List.nil_append,
        List.foldlM_cons, hc]
    refine ⟨l.rebuild d n counters cs, ?_, h.rebuild d n counters, find?_rebuild h d n counters,
      fun name hname => l.find?_rebuild_of_ne hname n counters cs⟩
    rw [Option.map_some, hsame, ← hexisting]
    exact l.applyAll_chainEdits P h n d counters

/-! ## An installation behind another -/

/-- What an installation stages that looks the table and each chain up at times of their own. -/
def lateEdits (l : Layout) (table : Ruleset) (chain : Direction → Ruleset) (set : CounterSet) :
    List Edit :=
  l.tableEdits table ++ (l.directionEdits (chain .input) .input set.input ++
    l.directionEdits (chain .output) .output set.output)

theorem applyAll_tableEdits (P : l.table.Place) (cs : List ChainState) (n : UInt64)
    (table : Ruleset) : (⟨P.fill ⟨l.table, cs⟩, n⟩ : Ruleset).applyAll (l.tableEdits table) =
      .ok ⟨P.fill ⟨l.table, cs⟩, n⟩ := by
  have hfind : (⟨P.fill ⟨l.table, cs⟩, n⟩ : Ruleset).find? l.table = some ⟨l.table, cs⟩ :=
    Ruleset.find?_fill P rfl
  unfold tableEdits
  split
  · rfl
  · have hadd : (⟨P.fill ⟨l.table, cs⟩, n⟩ : Ruleset).apply (.addTable l.table) =
        .ok ⟨P.fill ⟨l.table, cs⟩, n⟩ := by
      rw [Ruleset.apply, hfind]
      rfl
    exact Ruleset.applyAll_cons hadd []

/-- The rules of a direction's counters, as they are staged. -/
def staged (l : Layout) (set : CounterSet) (d : Direction) : List Rule :=
  (set.get d).map (Rule.ofCounter (l.chain d))

theorem map_withoutHandle_freshRules_eq (n : UInt64) (set : CounterSet) (d : Direction) :
    (l.freshRules n set d).map Rule.withoutHandle = l.staged set d := by
  cases d <;> exact Rule.map_withoutHandle_fresh _ _ _

/-- What an installation makes of the rules of one that has overtaken it, by the rule sets in which
it looked the chains up. -/
structure Overtakes (l : Layout) (seen : Direction → Ruleset) (first last : CounterSet)
    (rs : Ruleset) : Prop where
  chain : ∀ d, (rs.findChain? l.table (l.chainName d)).map ChainState.chain = some (l.chain d)
  rules : ∀ d, (rs.rules l.table (l.chainName d)).map Rule.withoutHandle =
    (if (seen d).findChain? l.table (l.chainName d) = none then l.staged first d else []) ++
      l.staged last d

/-- Of two installations the one that commits last replaces the rules of the other in the chains
that it had found, and comes behind them in those that it had not. -/
theorem exists_overtakes {rs rs₁ : Ruleset} (hne : l.inputChain ≠ l.outputChain) (hs : rs.Sound)
    {first : CounterSet} (h₁ : rs.applyAll (l.setupEdits rs first) = .ok rs₁) (last : CounterSet)
    (table : Ruleset) {seen : Direction → Ruleset} (hseen : ∀ d, (seen d).Sound) :
    ∃ rs₂, rs₁.applyAll (l.lateEdits table seen last) = .ok rs₂ ∧
      l.Overtakes seen first last rs₂ := by
  obtain ⟨P, cs, hd, -, -, happly⟩ := exists_applyAll_setupEdits hne hs first
  obtain rfl := Except.ok.inj (h₁.symm.trans happly)
  generalize rs.lastHandle + .ofNat first.input.length + .ofNat first.output.length = n
  have hd₁ : ChainState.Distinct l.table (l.reinstall rs.lastHandle first cs) :=
    (hd.rebuild .input _ first.input).rebuild .output _ first.output
  have hfind₁ (d : Direction) := find?_reinstall hne hd rs.lastHandle first d
  generalize l.reinstall rs.lastHandle first cs = cs₁ at hd₁ hfind₁ ⊢
  -- the edits of one direction leave the chain of the other alone
  obtain ⟨cs₂, ha₂, hd₂, hin, hkeep₂⟩ := applyAll_directionEdits_late P hd₁ n .input
    last.input (hseen .input) (hfind₁ .input)
  obtain ⟨cs₃, ha₃, -, hout, hkeep₃⟩ := applyAll_directionEdits_late P hd₂
    (n + .ofNat last.input.length) .output last.output (hseen .output)
    ((hkeep₂ _ hne.symm).trans (hfind₁ .output))
  have hfind (d : Direction) : ∃ m, cs₃.find? (·.chain.name = l.chainName d) = some ⟨l.chain d,
      (if (seen d).findChain? l.table (l.chainName d) = none then
          l.freshRules rs.lastHandle first d else []) ++
        Rule.fresh (l.chain d) m (last.get d)⟩ := by
    cases d with
    | input => exact ⟨n, (hkeep₃ _ hne).trans hin⟩
    | output => exact ⟨n + .ofNat last.input.length, hout⟩
  have hchain (d : Direction) (k : UInt64) : (⟨P.fill ⟨l.table, cs₃⟩, k⟩ : Ruleset).findChain?
      l.table (l.chainName d) = cs₃.find? (·.chain.name = l.chainName d) := by
    rw [Ruleset.findChain?, Ruleset.find?_fill P rfl]
    rfl
  refine ⟨⟨P.fill ⟨l.table, cs₃⟩, n + .ofNat last.input.length + .ofNat last.output.length⟩,
    ?_, fun d => ?_, fun d => ?_⟩
  · rw [lateEdits, Ruleset.applyAll_append (applyAll_tableEdits P cs₁ n table),
      Ruleset.applyAll_append ha₂]
    exact ha₃
  · obtain ⟨m, hm⟩ := hfind d
    rw [hchain, hm]
    rfl
  · obtain ⟨m, hm⟩ := hfind d
    rw [Ruleset.rules_eq_getD, hchain, hm, Option.map_some, Option.getD_some, List.map_append,
      Rule.map_withoutHandle_fresh, apply_ite (List.map Rule.withoutHandle),
      map_withoutHandle_freshRules_eq]
    rfl

end Layout

end FlowTally
