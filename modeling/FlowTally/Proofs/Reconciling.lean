import FlowTally.Proofs.Editing
import FlowTally.Proofs.Interference
/-!
# What the operations do

Installing and removing end in one of two ways, whatever calls are made to fail
(`Layout.setup_commits`, `Layout.cleanup_commits`): the rule set is the one that their edits lead
to, or it is as it was. In a table whose chains have names of their own, the edits of an
installation do apply, and leave it with its two chains behind the others
(`Layout.applyAll_setupEdits`).
-/

namespace FlowTally

open Kernel (Disturbed)

/-! ## Operations one after the other -/

namespace Operation

variable {σ α β : Type} [Transport σ]

theorem run_bind (m : Operation α) (f : α → Operation β) (s : σ) :
    (m >>= f).run.run s = match m.run.run s with
      | (.ok a, s) => (f a).run.run s
      | (.error e, s) => (.error e, s) := by
  refine (Session.run_bind m.run _ s).trans ?_
  generalize m.run.run s = r
  obtain ⟨r, s'⟩ := r
  cases r <;> rfl

end Operation

/-- The ways in which an operation can end that only stages edits: with its edits staged behind the
others, or because a call was made to fail. -/
inductive Stages (s : Disturbed) (edits : List Edit) :
    Except ReconcileError Unit × Disturbed → Prop where
  | staged {s' : Disturbed} (hs : s'.ruleset = s.ruleset)
    (hb : s'.client.batch = s.client.batch ++ edits) (hr : ∀ f, s.Ready f → s'.Ready f) :
    Stages s edits (.ok (), s')
  | failed {e : ReconcileError} {s' : Disturbed} (hs : s'.ruleset = s.ruleset)
    (hr : ∀ f, s.Ready f → s'.Ready f) (h : ∃ f, ¬ s.Ready f) : Stages s edits (.error e, s')

theorem Stages.bind {s : Disturbed} {edits edits' : List Edit} {m : Operation Unit}
    {f : Unit → Operation Unit} (h : Stages s edits (m.run.run s))
    (h' : ∀ s' : Disturbed, s'.ruleset = s.ruleset → Stages s' edits' ((f ()).run.run s')) :
    Stages s (edits ++ edits') ((m >>= f).run.run s) := by
  rw [Operation.run_bind]
  generalize m.run.run s = r at h ⊢
  cases h with
  | failed hs hr h => exact .failed hs hr h
  | @staged s' hs hb hr =>
    have h2 := h' s' hs
    simp only
    generalize (f ()).run.run s' = r at h2 ⊢
    cases h2 with
    | staged hs' hb' hr' =>
      refine .staged (hs'.trans hs) ?_ fun g hg => hr' g (hr g hg)
      rw [hb', hb, List.append_assoc]
    | failed hs' hr' hn =>
      obtain ⟨g, hg⟩ := hn
      exact .failed (hs'.trans hs) (fun g hg => hr' g (hr g hg)) ⟨g, fun h => hg (hr g h)⟩

/-- The ways in which a session can end that leads to the rule set `next`, if any: it does lead
there, or all is as it was since a call was made to fail or there is no such rule set. -/
inductive Commits (s : Disturbed) (next : Except TransportError Ruleset) :
    Except ReconcileError Unit × Disturbed → Prop where
  | committed {s' : Disturbed} (hb : s'.client.batch = []) (hr : ∀ f, s.Ready f → s'.Ready f)
    (h : next = .ok s'.ruleset) : Commits s next (.ok (), s')
  | failed {e : ReconcileError} {s' : Disturbed} (hb : s'.client.batch = [])
    (hr : ∀ f, s.Ready f → s'.Ready f) (hs : s'.ruleset = s.ruleset)
    (h : (∀ f, s.Ready f) → ∃ e, next = .error e) : Commits s next (.error e, s')

namespace Commits

variable {s s' : Disturbed} {next : Except TransportError Ruleset}
  {r : Except ReconcileError Unit × Disturbed}

/-- What came before has changed nothing. -/
theorem of_kept (hs : s'.ruleset = s.ruleset) (hr : ∀ f, s.Ready f → s'.Ready f)
    (h : Commits s' next r) : Commits s next r := by
  cases h with
  | committed hb hr' h => exact .committed hb (fun f hf => hr' f (hr f hf)) h
  | failed hb hr' hs' h =>
    exact .failed hb (fun f hf => hr' f (hr f hf)) (hs'.trans hs) fun hf => h fun f => hr f (hf f)

theorem ok_of_ready (h : Commits s next r) (hr : ∀ f, s.Ready f) {rs : Ruleset}
    (hn : next = .ok rs) : r.1 = .ok () := by
  cases h with
  | committed => rfl
  | failed hb hr' hs h =>
    obtain ⟨e, he⟩ := h hr
    rw [hn] at he
    cases he

end Commits

/-- Committing what is staged, and calling a failure by a name. -/
theorem commits_commit (s : Disturbed) (g : TransportError → ReconcileError) :
    Commits s (s.ruleset.applyAll s.client.batch)
      ((Session.commit fun r => .done (r.mapError g)).run s) := by
  have h := s.commit_ends
  simp only [Session.run]
  generalize Transport.commit s = r at h ⊢
  cases h with
  | answered hb hr h =>
    refine .committed hb hr ?_
    cases ha : s.ruleset.applyAll s.client.batch with
    | ok rs => rw [ha] at h; injection h with h; injection h with _ h; rw [h]
    | error e => rw [ha] at h; cases h
  | refused hb hr hs h =>
    refine .failed hb hr hs fun _ => ?_
    cases ha : s.ruleset.applyAll s.client.batch with
    | ok rs => rw [ha] at h; cases h
    | error e => exact ⟨e, rfl⟩
  | provoked hb hr hs _ h => exact .failed hb hr hs fun hr => absurd (hr _) h

namespace Layout

variable (l : Layout)

/-! ## Installing -/

/-- Adds the table if it is not there. -/
def tableEdits (rs : Ruleset) : List Edit :=
  match rs.find? l.table with
  | some _ => []
  | none => [.addTable l.table]

/-- The edits of one direction, in the chains as they are. -/
def directionEdits (rs : Ruleset) (d : Direction) (counters : List Counter) : List Edit :=
  l.chainEdits d ((rs.findChain? l.table (l.chainName d)).map ChainState.chain) counters

/-- All that an installation stages. -/
def setupEdits (rs : Ruleset) (set : CounterSet) : List Edit :=
  l.tableEdits rs ++
    (l.directionEdits rs .input set.input ++ l.directionEdits rs .output set.output)

theorem stageTable_stages (s : Disturbed) :
    Stages s (l.tableEdits s.ruleset) (l.stageTable.run.run s) := by
  have h := s.lookupTable_looks l.table
  change Disturbed.Looks s _ _ (Transport.lookupTable l.family l.tableName s) at h
  unfold tableEdits
  simp only [stageTable, ExceptT.run_mk, Session.run]
  generalize Transport.lookupTable l.family l.tableName s = r at h ⊢
  cases hf : s.ruleset.find? l.table with
  | none =>
    rw [hf, Option.map_none] at h
    cases h with
    | missing hk => exact .staged hk.ruleset (by rw [← hk.batch]; rfl) hk.ready
    | provoked hk he h => cases he <;> exact .failed hk.ruleset hk.ready ⟨_, h⟩
  | some ts =>
    rw [hf, Option.map_some] at h
    cases h with
    | found hk => exact .staged hk.ruleset (by simp [hk.batch]) hk.ready
    | provoked hk he h => cases he <;> exact .failed hk.ruleset hk.ready ⟨_, h⟩

theorem stageChain_stages (d : Direction) (counters : List Counter) (s : Disturbed) :
    Stages s (l.directionEdits s.ruleset d counters) ((l.stageChain d counters).run.run s) := by
  have h := s.lookupChain_looks l.table (l.chainName d)
  unfold directionEdits
  simp only [stageChain, ExceptT.run_mk, Session.run]
  generalize Transport.lookupChain l.table (l.chainName d) s = r at h ⊢
  generalize (s.ruleset.findChain? l.table (l.chainName d)).map ChainState.chain = found at h ⊢
  cases h with
  | found hk => exact .staged hk.ruleset (by rw [← hk.batch]; rfl) hk.ready
  | missing hk => exact .staged hk.ruleset (by rw [← hk.batch]; rfl) hk.ready
  | provoked hk he h => cases he <;> exact .failed hk.ruleset hk.ready ⟨_, h⟩

theorem stageSetup_stages (set : CounterSet) (s : Disturbed) :
    Stages s (l.setupEdits s.ruleset set) ((l.stageSetup set).run.run s) := by
  refine (l.stageTable_stages s).bind fun s' hs => ?_
  rw [← hs]
  refine (l.stageChain_stages .input set.input s').bind fun s'' hs => ?_
  rw [← hs]
  exact l.stageChain_stages .output set.output s''

/-- Installing leads to what its edits lead to, or leaves everything as it was. -/
theorem setup_commits (set : CounterSet) (s : Disturbed) :
    Commits s (s.ruleset.applyAll (l.setupEdits s.ruleset set)) ((l.setup set).run s) := by
  -- What was staged before is discarded, so the batch is what the installation stages.
  let s₀ : Disturbed := Transport.discard s
  have h : Stages s₀ (l.setupEdits s.ruleset set) ((l.stageSetup set).run.run s₀) :=
    l.stageSetup_stages set s₀
  change Commits s _ (Session.run (Session.bind _ _) s₀)
  rw [Session.run_bind]
  generalize (l.stageSetup set).run.run s₀ = r at h ⊢
  cases h with
  | failed hs hr h =>
    refine .failed rfl hr hs fun hr => ?_
    obtain ⟨f, hf⟩ := h
    exact absurd (hr f) hf
  | @staged s' hs hb hr =>
    have hc := commits_commit s' .commitFailed
    have hb' : s'.client.batch = l.setupEdits s.ruleset set := hb
    have hs' : s'.ruleset = s.ruleset := hs
    rw [hs', hb'] at hc
    exact hc.of_kept hs hr

/-! ## The rule set after an installation -/

/-- The chains of the table with both directions replaced. -/
def reinstall (n : UInt64) (set : CounterSet) (cs : List ChainState) : List ChainState :=
  l.rebuild .output (n + .ofNat set.input.length) set.output (l.rebuild .input n set.input cs)

variable {l}

/-- In a table that is there, the edits replace the chains and change nothing around it. -/
theorem applyAll_setupEdits (hne : l.inputChain ≠ l.outputChain) (P : l.table.Place)
    {cs : List ChainState} (h : ChainState.Distinct l.table cs) (n : UInt64) (set : CounterSet) :
    (⟨P.fill ⟨l.table, cs⟩, n⟩ : Ruleset).applyAll
        (l.setupEdits ⟨P.fill ⟨l.table, cs⟩, n⟩ set) =
      .ok ⟨P.fill ⟨l.table, l.reinstall n set cs⟩,
        n + .ofNat set.input.length + .ofNat set.output.length⟩ := by
  have hf : (⟨P.fill ⟨l.table, cs⟩, n⟩ : Ruleset).find? l.table = some ⟨l.table, cs⟩ :=
    Ruleset.find?_fill P rfl
  have hd (d : Direction) (counters : List Counter) :
      l.directionEdits ⟨P.fill ⟨l.table, cs⟩, n⟩ d counters =
        l.chainEdits d (l.existing d cs) counters := by
    rw [directionEdits, Ruleset.findChain?, hf]
    rfl
  -- Both chains were looked up before any of the edits was applied.
  rw [setupEdits, tableEdits, hf, hd, hd, List.nil_append,
    Ruleset.applyAll_append (l.applyAll_chainEdits P h n .input set.input),
    ← l.existing_rebuild (d := .input) (e := .output) hne.symm n set.input cs]
  exact l.applyAll_chainEdits P (h.rebuild .input n set.input) _ .output set.output

/-- A table that is not there comes behind the others. -/
theorem applyAll_setupEdits_of_none (hne : l.inputChain ≠ l.outputChain) {rs : Ruleset}
    (h : rs.find? l.table = none) (set : CounterSet) :
    rs.applyAll (l.setupEdits rs set) =
      .ok ⟨rs.tables ++ [⟨l.table, l.reinstall rs.lastHandle set []⟩],
        rs.lastHandle + .ofNat set.input.length + .ofNat set.output.length⟩ := by
  let P : l.table.Place := Slot.last rs.tables h
  let rs' : Ruleset := ⟨P.fill ⟨l.table, []⟩, rs.lastHandle⟩
  have hadd : rs.apply (.addTable l.table) = .ok rs' := by
    rw [Ruleset.apply, h]
    rfl
  have hd (d : Direction) (counters : List Counter) :
      l.directionEdits rs d counters = l.directionEdits rs' d counters := by
    rw [directionEdits, directionEdits, Ruleset.findChain?, Ruleset.findChain?, h,
      Ruleset.find?_fill P rfl]
    rfl
  have ht : l.tableEdits rs' = [] := by
    rw [tableEdits, Ruleset.find?_fill P rfl]
  have hedits : l.setupEdits rs set = .addTable l.table :: l.setupEdits rs' set := by
    rw [setupEdits, setupEdits, tableEdits, h, ht, hd, hd]
    rfl
  have hnil : ChainState.Distinct l.table [] := ⟨fun _ hc => absurd hc List.not_mem_nil, .nil⟩
  rw [hedits, Ruleset.applyAll_cons hadd]
  exact applyAll_setupEdits hne P hnil rs.lastHandle set

/-! ## Removing -/

end Layout

/-- The rule set without a table. -/
def Ruleset.without (rs : Ruleset) (t : Table) : Ruleset :=
  { rs with tables := rs.tables.filter (·.table ≠ t) }

namespace Ruleset

variable {rs : Ruleset} {t : Table}

theorem find?_without (rs : Ruleset) (t : Table) : (rs.without t).find? t = none := by
  simp [without, find?]

theorem without_eq_self (h : rs.find? t = none) : rs.without t = rs := by
  have hf : rs.tables.filter (·.table ≠ t) = rs.tables := by
    rw [List.filter_eq_self]
    intro ts hts
    simpa using List.find?_eq_none.1 h ts hts
  rw [without, hf]

theorem applyAll_removal (h : (rs.find? t).isSome) :
    rs.applyAll [.flushTable t, .deleteTable t] = .ok (rs.without t) := by
  obtain ⟨ts, hts⟩ := Option.isSome_iff_exists.1 h
  obtain ⟨ht, P, hP⟩ := exists_fill hts
  have hflush : rs.apply (.flushTable t) = .ok ⟨P.fill ts.flush, rs.lastHandle⟩ := by
    conv_lhs => rw [hP]
    exact updateTable_fill P ht _
  have hdelete : (⟨P.fill ts.flush, rs.lastHandle⟩ : Ruleset).apply (.deleteTable t) =
      .ok (rs.without t) := by
    have hf : ts.flush.table = t := ht
    rw [apply, findTable_fill P hf, without]
    conv_rhs => rw [hP]
    simp [Except.map, Slot.fill, ht, hf]
  rw [applyAll_cons hflush, applyAll_cons hdelete, applyAll_nil]

end Ruleset

namespace Layout

variable (l : Layout)

/-- Removing leads to the rule set without the table, or leaves everything as it was. -/
theorem cleanup_commits (s : Disturbed) :
    Commits s (.ok (s.ruleset.without l.table)) (l.cleanup.run s) := by
  have h := (Transport.discard s : Disturbed).lookupTable_looks l.table
  have hrs : (Transport.discard s : Disturbed).ruleset = s.ruleset := rfl
  change Disturbed.Looks _ _ _ (Transport.lookupTable l.family l.tableName _) at h
  simp only [cleanup, Session.run]
  generalize Transport.lookupTable l.family l.tableName (Transport.discard s) = r at h ⊢
  cases hf : s.ruleset.find? l.table with
  | none =>
    rw [hrs, hf, Option.map_none] at h
    cases h with
    | missing hk =>
      refine .committed hk.batch hk.ready ?_
      rw [Ruleset.without_eq_self hf]
      exact congrArg _ hk.ruleset.symm
    | provoked hk he h =>
      cases he <;> exact .failed hk.batch hk.ready hk.ruleset fun hr => absurd (hr _) h
  | some ts =>
    rw [hrs, hf, Option.map_some] at h
    have ht : ts.table = l.table := (Ruleset.exists_fill hf).1
    cases h with
    | provoked hk he h =>
      cases he <;> exact .failed hk.batch hk.ready hk.ruleset fun hr => absurd (hr _) h
    | @found _ s' hk =>
      have hc := commits_commit (Transport.stage [.flushTable ts.table, .deleteTable ts.table] s')
        .cleanupFailed
      have hb : (Transport.stage [.flushTable ts.table, .deleteTable ts.table] s').client.batch =
          [.flushTable l.table, .deleteTable l.table] := by
        rw [← ht]
        show s'.client.batch ++ _ = _
        rw [hk.batch]
        rfl
      have hs : s'.ruleset = s.ruleset := hk.ruleset
      change Commits _ (s'.ruleset.applyAll _) _ at hc
      rw [hb, hs, Ruleset.applyAll_removal (by simp [hf])] at hc
      refine Commits.of_kept ?_ ?_ hc
      · exact hk.ruleset
      · exact hk.ready

end Layout

end FlowTally
