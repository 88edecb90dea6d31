import FlowTally.Proofs.Draining
import FlowTally.Proofs.Reconciling
/-!
# What a failed listing loses

A listing reads the input chain and then the output chain (`Layout.listDirection_lists`). What a
chain had counted is gone once it is read, also if the listing fails after that: at a rule it cannot
make sense of, or at the other chain. `Layout.listCounters_loses` says which chains those are for
each way of failing (`Layout.Interrupted`), and that nothing is lost exactly if none of their rules
had counted.
-/

namespace FlowTally

open Kernel (Disturbed)

theorem Operation.drained_bind {σ α β : Type} [Transport σ] (m : Operation α)
    (f : α → Operation β) (s : σ) :
    (m >>= f).run.drained s = m.run.drained s ++ match m.run.run s with
      | (.ok a, s) => (f a).run.drained s
      | (.error _, _) => [] := by
  refine (Session.drained_bind m.run _ s).trans ?_
  generalize m.run.run s = r
  obtain ⟨r, s'⟩ := r
  cases r <;> rfl

theorem Operation.reads_bind {α β : Type} {m : Operation α} {f : α → Operation β}
    (h : m.run.Reads) (h' : ∀ a, (f a).run.Reads) : (m >>= f).run.Reads := by
  refine Session.Reads.bind h fun r => ?_
  cases r with
  | ok a => exact h' a
  | error e => exact trivial

namespace Layout

variable (l : Layout)

/-! ## Calls of a listing -/

/-- The ways in which looking up the table can end. -/
inductive FindsTable (s : Disturbed) : Except ReconcileError Table × Disturbed → Prop where
  | found {s' : Disturbed} (hk : s.Kept s') (h : (s.ruleset.find? l.table).isSome) :
    FindsTable s (.ok l.table, s')
  | missing {s' : Disturbed} (hk : s.Kept s') (h : s.ruleset.find? l.table = none) :
    FindsTable s (.error (.tableNotFound l.tableName), s')
  | failed {cause : TransportError} {s' : Disturbed} (hk : s.Kept s')
    (h : ¬ s.Ready .lookupTable) : FindsTable s (.error (.listFailed "" cause), s')

theorem findTable_finds (s : Disturbed) : l.FindsTable s (l.findTable.run.run s) := by
  have h := s.lookupTable_looks l.table
  change Disturbed.Looks s _ _ (Transport.lookupTable l.family l.tableName s) at h
  simp only [findTable, ExceptT.run_mk, Session.run]
  generalize Transport.lookupTable l.family l.tableName s = r at h ⊢
  cases hf : s.ruleset.find? l.table with
  | none =>
    rw [hf, Option.map_none] at h
    cases h with
    | missing hk => exact .missing hk hf
    | provoked hk he h => cases he <;> exact .failed hk h
  | some ts =>
    rw [hf, Option.map_some] at h
    cases h with
    | found hk =>
      rw [(Ruleset.exists_fill hf).1]
      exact .found hk (by rw [hf]; rfl)
    | provoked hk he h => cases he <;> exact .failed hk h

theorem drained_findTable (s : Disturbed) : l.findTable.run.drained s = [] := by
  simp only [findTable, ExceptT.run_mk, Session.drained]
  generalize Transport.lookupTable l.family l.tableName s = r
  obtain ⟨r, s'⟩ := r
  rcases r with e | t
  · cases e <;> rfl
  · rfl

/-- The ways in which listing one direction can end, and the chains it has read until then. -/
inductive Lists (s : Disturbed) (d : Direction) :
    Except ReconcileError (List Counter) × Disturbed → List (Table × String) → Prop where
  | read {rules : List Rule} {s' : Disturbed} (hr : ∀ f, s.Ready f → s'.Ready f)
    (hb : s'.client.batch = s.client.batch)
    (h : s.ruleset.drain l.table (l.chainName d) = .ok (rules, s'.ruleset)) :
    Lists s d (readCounters (l.chainName d) d 0 rules, s') [(l.table, l.chainName d)]
  | missing {s' : Disturbed} (hk : s.Kept s')
    (h : s.ruleset.findChain? l.table (l.chainName d) = none) :
    Lists s d (.error (.chainNotFound (l.chainName d)), s') []
  | failed {cause : TransportError} {s' : Disturbed} (hk : s.Kept s')
    (h : ¬ (s.Ready .lookupChain ∧ s.Ready .drainRules)) :
    Lists s d (.error (.listFailed (l.chainName d) cause), s') []

theorem listDirection_lists (d : Direction) (s : Disturbed) : l.Lists s d
    ((l.listDirection l.table d).run.run s) ((l.listDirection l.table d).run.drained s) := by
  have h := s.lookupChain_looks l.table (l.chainName d)
  simp only [listDirection, ExceptT.run_mk, Session.run, Session.drained]
  generalize Transport.lookupChain l.table (l.chainName d) s = r at h ⊢
  cases hf : s.ruleset.findChain? l.table (l.chainName d) with
  | none =>
    rw [hf, Option.map_none] at h
    cases h with
    | missing hk => exact .missing hk hf
    | provoked hk he h => cases he <;> exact .failed hk fun hr => h hr.1
  | some cs =>
    rw [hf, Option.map_some] at h
    cases h with
    | provoked hk he h => cases he <;> exact .failed hk fun hr => h hr.1
    | @found _ s' hk =>
      obtain ⟨hc, P, C, hP⟩ := Ruleset.exists_fill_chain hf
      have hd := s'.drainRules_ends l.table cs.chain
      rw [hc, hk.ruleset] at hd
      simp only [Session.run, Session.drained]
      generalize Transport.drainRules l.table cs.chain s' = r at hd ⊢
      cases hd with
      | answered hb hr ha =>
        rw [hc]
        exact .read (fun f hf => hr f (hk.ready f hf)) (hb.trans hk.batch) ha
      | refused hb hr hs ha =>
        rw [hP, Ruleset.drain_fill P C hc] at ha
        cases ha
      | provoked hb hr hs he h =>
        refine .failed ⟨hs.trans hk.ruleset, hb.trans hk.batch, fun f hf => hr f (hk.ready f hf)⟩ ?_
        exact fun hr => h (hk.ready _ hr.2)

theorem reads_listDirection (t : Table) (d : Direction) : (l.listDirection t d).run.Reads := by
  rintro (e | chain)
  · cases e <;> exact trivial
  · rintro (e | rules) <;> exact trivial

theorem reads_listCounters : l.listCounters.run.Reads := by
  have htable : l.findTable.run.Reads := by
    rintro (e | t)
    · cases e <;> exact trivial
    · exact trivial
  exact Operation.reads_bind htable fun t => Operation.reads_bind (l.reads_listDirection t .input)
    fun _ => Operation.reads_bind (l.reads_listDirection t .output) fun _ => trivial

theorem malformed_of_readCounters {chain : String} {d : Direction} {e : ReconcileError}
    {rules : List Rule} : ∀ {index : Nat}, readCounters chain d index rules = .error e →
      ∃ i cause, e = .malformedRule chain i cause := by
  induction rules with
  | nil => intro index h; cases h
  | cons r rules ih =>
    intro index h
    rw [readCounters] at h
    cases hr : r.toCounter with
    | error cause =>
      rw [hr] at h
      injection h with h
      exact ⟨index, cause, h.symm⟩
    | ok c =>
      rw [hr] at h
      cases hrest : readCounters chain d (index + 1) rules with
      | error e' =>
        simp only [hrest] at h
        injection h with h
        subst h
        exact ih hrest
      | ok cs =>
        simp only [hrest] at h
        cases h

/-! ## Where a listing fails -/

/-- The chains that are read before the one of a direction. -/
def readBefore : Direction → List (Table × String)
  | .input => []
  | .output => [(l.table, l.inputChain)]

/-- The ways in which a listing can fail, and the chains it has read until then. -/
inductive Interrupted : ReconcileError → List (Table × String) → Prop where
  | noTable : Interrupted (.tableNotFound l.tableName) []
  | table (cause : TransportError) : Interrupted (.listFailed "" cause) []
  | noChain (d : Direction) : Interrupted (.chainNotFound (l.chainName d)) (l.readBefore d)
  | chain (d : Direction) (cause : TransportError) :
    Interrupted (.listFailed (l.chainName d) cause) (l.readBefore d)
  | rule (d : Direction) (index : Nat) (cause : ForeignRule) :
    Interrupted (.malformedRule (l.chainName d) index cause)
      (l.readBefore d ++ [(l.table, l.chainName d)])

variable {l}

theorem Lists.interrupted {s : Disturbed} {d : Direction} {e : ReconcileError} {s' : Disturbed}
    {xs : List (Table × String)} (h : l.Lists s d (.error e, s') xs) :
    l.Interrupted e (l.readBefore d ++ xs) := by
  generalize hr : (Except.error e, s') = r at h
  cases h with
  | read _ _ h =>
    obtain ⟨i, cause, rfl⟩ := malformed_of_readCounters (Prod.ext_iff.1 hr).1.symm
    exact .rule d i cause
  | missing hk h =>
    cases hr
    rw [List.append_nil]
    exact .noChain d
  | failed hk h =>
    cases hr
    rw [List.append_nil]
    exact .chain d _

theorem Lists.drained_of_ok {s : Disturbed} {d : Direction} {cs : List Counter} {s' : Disturbed}
    {xs : List (Table × String)} (h : l.Lists s d (.ok cs, s') xs) :
    xs = [(l.table, l.chainName d)] := by
  generalize hr : (Except.ok cs, s') = r at h
  cases h with
  | read => rfl
  | missing => cases hr
  | failed => cases hr

theorem interrupted_of_listCounters {s : Disturbed} {e : ReconcileError}
    (h : (l.listCounters.run.run s).1 = .error e) :
    l.Interrupted e (l.listCounters.run.drained s) := by
  have htable := l.findTable_finds s
  rw [listCounters, Operation.run_bind] at h
  rw [listCounters, Operation.drained_bind, l.drained_findTable, List.nil_append]
  generalize l.findTable.run.run s = r at h htable ⊢
  cases htable with
  | missing => cases h; exact .noTable
  | failed => cases h; exact .table _
  | @found s₁ =>
    -- By the time that anything about the output chain fails, the input chain has been read.
    have hi := l.listDirection_lists .input s₁
    simp only [Operation.run_bind, Operation.drained_bind] at h ⊢
    generalize (l.listDirection l.table .input).run.run s₁ = r at h hi ⊢
    obtain ⟨r | r, s₂⟩ := r
    · cases h
      rw [List.append_nil]
      exact hi.interrupted
    · have ho := l.listDirection_lists .output s₂
      rw [hi.drained_of_ok]
      simp only at h ⊢
      generalize (l.listDirection l.table .output).run.run s₂ = r at h ho ⊢
      obtain ⟨r | r, s₃⟩ := r
      · cases h
        rw [List.append_nil]
        exact ho.interrupted
      · cases h

/-- A listing that fails has cleared the chains that it had read by then, and has changed nothing
else. So it loses no counts exactly if the rules of these chains had counted nothing. Which chains
these are depends on how it failed. -/
theorem listCounters_loses {s : Disturbed} {e : ReconcileError}
    (h : (l.listCounters.run.run s).1 = .error e) :
    (∀ t name, (l.listCounters.run.run s).2.ruleset.rules t name =
      if (t, name) ∈ l.listCounters.run.drained s then (s.ruleset.rules t name).map Rule.reset
      else s.ruleset.rules t name) ∧
    ((l.listCounters.run.run s).2.ruleset = s.ruleset ↔
      ∀ x ∈ l.listCounters.run.drained s, ∀ r ∈ s.ruleset.rules x.1 x.2, r.Idle) ∧
    l.Interrupted e (l.listCounters.run.drained s) := by
  rw [Session.run_reads l.reads_listCounters]
  refine ⟨fun t name => Ruleset.rules_foldl_clear _ t name _, Ruleset.foldl_clear_eq_self_iff, ?_⟩
  exact interrupted_of_listCounters h

/-- A layout with a counter that has counted, and with someone else's rule behind it. -/
def visited : Disturbed where
  client :=
    let l : Layout := {}
    let counted := Rule.installed (l.chain .input) { label := "all_in" } (some 1) 3 180
    let foreign : Rule :=
      { table := l.table, chain := "output", handle := some 2, exprs := [.other "immediate"] }
    { kernel.ruleset :=
        { tables := [⟨l.table, [⟨l.chain .input, [counted]⟩, ⟨l.chain .output, [foreign]⟩]⟩]
          lastHandle := 2 } }

theorem listCounters_loses_visited : ∃ e : ReconcileError,
    ((listCounters {}).run.run visited).1 = .error e ∧
    (∀ t name, ((listCounters {}).run.run visited).2.ruleset.rules t name =
      if (t, name) ∈ (listCounters {}).run.drained visited then
        (visited.ruleset.rules t name).map Rule.reset
      else visited.ruleset.rules t name) ∧
    (((listCounters {}).run.run visited).2.ruleset = visited.ruleset ↔
      ∀ x ∈ (listCounters {}).run.drained visited, ∀ r ∈ visited.ruleset.rules x.1 x.2, r.Idle) ∧
    Interrupted {} e ((listCounters {}).run.drained visited) := by
  have h : ((listCounters {}).run.run visited).1 =
      .error (.malformedRule "output" 0 (.unsupportedExpr "immediate")) := by decide +kernel
  exact ⟨_, h, listCounters_loses h⟩

/-- A listing has failed, and what the first counter had counted is nowhere anymore. -/
theorem visited_lost :
    ((listCounters {}).run.run visited).1 =
      .error (.malformedRule "output" 0 (.unsupportedExpr "immediate")) ∧
    visited.ruleset.rules (table {}) "input" =
      [Rule.installed (chain {} .input) { label := "all_in" } (some 1) 3 180] ∧
    ((listCounters {}).run.run visited).2.ruleset.rules (table {}) "input" =
      [Rule.installed (chain {} .input) { label := "all_in" } (some 1) 0 0] := by
  decide +kernel

end Layout

end FlowTally
