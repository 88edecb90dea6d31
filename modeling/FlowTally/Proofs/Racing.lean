import FlowTally.Proofs.Overtaking
import Mathlib.Logic.Function.Basic
/-!
# Installations that race

Two clients of one kernel install counters at the same time, in the same layout, and the calls of
one come between those of the other in any order. When both have ended, both have succeeded, and the
rules are those of the one that has committed last, save in a chain that this one had looked up
before the other committed and that was not there then (`Race.run_race`).
-/

namespace FlowTally

open Kernel (Client)

/-! ## Sessions step by step -/

/-- A call to what clients share. -/
inductive Move where
  | lookupTable (family : Family) (name : String)
  | lookupChain (table : Table) (name : String)
  | drainRules (table : Table) (chain : Chain)
  | commit
  deriving DecidableEq

namespace Session

variable {α : Type}

/-- What remains of a session after its next step, and what the step leaves. -/
def step {σ : Type} [Transport σ] : Session α → σ → Session α × σ
  | done a, s => (done a, s)
  | lookupTable family name next, s => (Transport.lookupTable family name s).map next id
  | lookupChain table name next, s => (Transport.lookupChain table name s).map next id
  | drainRules table chain next, s => (Transport.drainRules table chain s).map next id
  | stage edits next, s => (next, Transport.stage edits s)
  | discard next, s => (next, Transport.discard s)
  | commit next, s => (Transport.commit s).map next id

/-- The call that the next step makes. Steps on the client's own batch make none. -/
def move? : Session α → Option Move
  | lookupTable family name _ => some (.lookupTable family name)
  | lookupChain table name _ => some (.lookupChain table name)
  | drainRules table chain _ => some (.drainRules table chain)
  | commit _ => some .commit
  | done _ | stage .. | discard _ => none

def result? : Session α → Option α
  | done a => some a
  | _ => none

/-- Running a session is taking its steps. -/
theorem run_step {σ : Type} [Transport σ] (m : Session α) (s : σ) :
    (m.step s).1.run (m.step s).2 = m.run s := by
  cases m <;> rfl

/-- What remains of a session before its next call, and the batch by then. -/
def settle : Session α → Batch → Session α × Batch
  | stage edits next, b => next.settle (b ++ edits)
  | discard next, _ => next.settle []
  | m, b => (m, b)

theorem settle_of_move {m : Session α} {x : Move} (h : m.move? = some x) (b : Batch) :
    m.settle b = (m, b) := by
  cases m <;> first | rfl | cases h

/-- A step that makes no call leaves the kernel as it is, and comes no nearer to the next call than
the session is to it. -/
theorem step_of_no_move {m : Session α} (h : m.move? = none) (k : Kernel) (b : Batch) :
    ∃ m' b', m.step (⟨k, b⟩ : Client) = (m', ⟨k, b'⟩) ∧ m'.settle b' = m.settle b := by
  cases m with
  | done a => exact ⟨_, _, rfl, rfl⟩
  | stage edits next => exact ⟨_, _, rfl, rfl⟩
  | discard next => exact ⟨_, _, rfl, rfl⟩
  | lookupTable | lookupChain | drainRules | commit => cases h

end Session

/-! ## An installation call by call -/

/-- The call that an installation makes next. -/
inductive Stage where
  | table
  | chain (d : Direction)
  | commit
  deriving DecidableEq

/-- The calls that an installation has made before. -/
def Stage.before : Stage → List Stage
  | table => []
  | chain .input => [table]
  | chain .output => [table, chain .input]
  | commit => [table, chain .input, chain .output]

def Stage.next : Stage → Stage
  | table => chain .input
  | chain .input => chain .output
  | chain .output | commit => commit

theorem Stage.before_next {s : Stage} (h : s ≠ commit) : s.next.before = s.before ++ [s] := by
  cases s with
  | table => rfl
  | chain d => cases d <;> rfl
  | commit => exact absurd rfl h

theorem Stage.commit_not_mem_before (s : Stage) : commit ∉ s.before := by
  cases s with
  | chain d => cases d <;> decide
  | table | commit => decide

theorem Stage.not_mem_before (s : Stage) : s ∉ s.before := by
  cases s with
  | chain d => cases d <;> decide
  | table | commit => decide

namespace Layout

variable (l : Layout)

def move : Stage → Move
  | .table => .lookupTable l.family l.tableName
  | .chain d => .lookupChain l.table (l.chainName d)
  | .commit => .commit

/-- How an installation ends once all is staged, or not. -/
def conclude : Except ReconcileError Unit → Session (Except ReconcileError Unit)
  | .error e => .discard (.done (.error e))
  | .ok () => .commit fun r => .done (r.mapError .commitFailed)

/-- What remains of an installation. -/
def remaining (set : CounterSet) : Stage → Session (Except ReconcileError Unit)
  | .table => (l.stageSetup set).run.bind conclude
  | .chain .input => (ExceptT.run do
      l.stageChain .input set.input
      l.stageChain .output set.output).bind conclude
  | .chain .output => (l.stageChain .output set.output).run.bind conclude
  | .commit => conclude (.ok ())

/-- What is staged by then, if a call sees the rule set as it is at its time. -/
def stagedBefore (seen : Stage → Ruleset) (set : CounterSet) : Stage → List Edit
  | .table => []
  | .chain .input => l.tableEdits (seen .table)
  | .chain .output =>
    l.tableEdits (seen .table) ++ l.directionEdits (seen (.chain .input)) .input set.input
  | .commit => l.lateEdits (seen .table) (fun d => seen (.chain d)) set

/-- An installation whose next call is the one of a stage, but for steps on its own batch. -/
def Awaits (seen : Stage → Ruleset) (set : CounterSet) (s : Stage)
    (m : Session (Except ReconcileError Unit)) (b : Batch) : Prop :=
  m.settle b = (l.remaining set s, l.stagedBefore seen set s)

variable {l} {seen : Stage → Ruleset} {set : CounterSet} {s : Stage}
  {m : Session (Except ReconcileError Unit)} {b : Batch}

theorem move_inj (hne : l.inputChain ≠ l.outputChain) {s s' : Stage} (h : l.move s = l.move s') :
    s = s' := by
  cases s with
  | table | commit => cases s' <;> first | rfl | cases h
  | chain d =>
    cases s' with
    | table | commit => cases h
    | chain d' =>
      have hn : l.chainName d = l.chainName d' := (Move.lookupChain.inj h).2
      cases d <;> cases d' <;> first | rfl | exact absurd hn hne | exact absurd hn.symm hne

theorem move?_remaining (s : Stage) : (l.remaining set s).move? = some (l.move s) := by
  cases s with
  | table => rfl
  | chain d => cases d <;> rfl
  | commit => rfl

theorem awaits_setup (seen : Stage → Ruleset) (set : CounterSet) (b : Batch) :
    l.Awaits seen set .table (l.setup set) b := rfl

namespace Awaits

theorem eq_of_move (h : l.Awaits seen set s m b) {x : Move} (hm : m.move? = some x) :
    m = l.remaining set s ∧ b = l.stagedBefore seen set s ∧ x = l.move s := by
  rw [Awaits, Session.settle_of_move hm] at h
  obtain ⟨rfl, rfl⟩ := Prod.mk.inj h
  exact ⟨rfl, rfl, Option.some.inj (hm.symm.trans (move?_remaining s))⟩

theorem result?_eq_none (h : l.Awaits seen set s m b) : m.result? = none := by
  cases m with
  | done a =>
    have hm : (l.remaining set s).move? = some (l.move s) := move?_remaining s
    rw [← (Prod.mk.inj h).1] at hm
    cases hm
  | _ => rfl

/-- What a call sees that is still to be made does not matter yet. -/
theorem congr (h : l.Awaits seen set s m b) {seen' : Stage → Ruleset}
    (hs : ∀ x ∈ s.before, seen' x = seen x) : l.Awaits seen' set s m b := by
  have hstaged : l.stagedBefore seen' set s = l.stagedBefore seen set s := by
    cases s with
    | table => rfl
    | chain d => cases d <;> simp_all [stagedBefore, Stage.before]
    | commit => simp_all [stagedBefore, Stage.before, lateEdits]
  rw [Awaits, hstaged]
  exact h

end Awaits

theorem remaining_table (set : CounterSet) : l.remaining set .table =
    .lookupTable l.family l.tableName fun
      | .ok _ => l.remaining set (.chain .input)
      | .error (.notFound _) => .stage [.addTable l.table] (l.remaining set (.chain .input))
      | .error e => .discard (.done (.error (.setupFailed (.table l.table) e))) := by
  refine congrArg (Session.lookupTable _ _) (funext fun r => ?_)
  rcases r with e | t
  · cases e <;> rfl
  · rfl

theorem remaining_chain (set : CounterSet) (d : Direction) : l.remaining set (.chain d) =
    .lookupChain l.table (l.chainName d) fun
      | .ok c => .stage (l.chainEdits d (some c) (set.get d)) (l.remaining set (Stage.chain d).next)
      | .error (.notFound _) =>
        .stage (l.chainEdits d none (set.get d)) (l.remaining set (Stage.chain d).next)
      | .error e => .discard (.done (.error (.setupFailed (.chain (l.chainName d)) e))) := by
  cases d <;> refine congrArg (Session.lookupChain _ _) (funext fun r => ?_) <;>
    rcases r with e | c <;> first | rfl | (cases e <;> rfl)

theorem stagedBefore_next (seen : Stage → Ruleset) (set : CounterSet) (d : Direction) :
    l.stagedBefore seen set (Stage.chain d).next =
      l.stagedBefore seen set (.chain d) ++ l.directionEdits (seen (.chain d)) d (set.get d) := by
  cases d with
  | input => rfl
  | output => exact (List.append_assoc ..).symm

/-- A lookup that is not made to fail is followed by the edits that it gives rise to, and by the next
call. -/
theorem awaits_step {k : Kernel} (hr : ∀ f, k.Ready f) (hs : s ≠ .commit)
    (hseen : seen s = k.ruleset) : ∃ m b,
      (l.remaining set s).step (⟨k, l.stagedBefore seen set s⟩ : Client) = (m, ⟨k, b⟩) ∧
        l.Awaits seen set s.next m b := by
  cases s with
  | table =>
    rw [remaining_table, Session.step, lookupTable_of_ready hr]
    refine ⟨_, _, rfl, ?_⟩
    have ht : (⟨l.family, l.tableName⟩ : Table) = l.table := rfl
    have hnext : l.stagedBefore seen set Stage.table.next = l.tableEdits k.ruleset := hseen ▸ rfl
    unfold Awaits
    rw [hnext, ht, Ruleset.findTable]
    unfold tableEdits
    cases k.ruleset.find? l.table <;> exact Session.settle_of_move (move?_remaining _) _
  | chain d =>
    rw [remaining_chain, Session.step, lookupChain_of_ready hr]
    refine ⟨_, _, rfl, ?_⟩
    unfold Awaits
    rw [stagedBefore_next, directionEdits, hseen, ← k.ruleset.toOption_findChain]
    cases hc : k.ruleset.findChain l.table (l.chainName d) with
    | ok c => exact Session.settle_of_move (move?_remaining _) _
    | error e =>
      obtain ⟨what, rfl⟩ := Ruleset.notFound_of_findChain hc
      exact Session.settle_of_move (move?_remaining _) _
  | commit => exact absurd rfl hs

/-- A commit that is not made to fail ends the installation. -/
theorem commit_step {k : Kernel} (hr : ∀ f, k.Ready f) {rs : Ruleset}
    (h : k.ruleset.applyAll (l.stagedBefore seen set .commit) = .ok rs) :
    (l.remaining set .commit).step (⟨k, l.stagedBefore seen set .commit⟩ : Client) =
      (.done (.ok ()), ⟨{ k with ruleset := rs, commits := k.commits + 1 }, []⟩) := by
  rw [remaining, conclude, Session.step, commit_of_ready hr _ h]
  rfl

end Layout

/-! ## Races -/

inductive Side where
  | left
  | right
  deriving DecidableEq

def Side.opposite : Side → Side
  | left => right
  | right => left

theorem Side.opposite_opposite (p : Side) : p.opposite.opposite = p := by
  cases p <;> rfl

theorem Side.opposite_ne (p : Side) : p.opposite ≠ p := by
  cases p <;> decide

theorem Side.eq_opposite_of_ne {p q : Side} (h : q ≠ p) : q = p.opposite := by
  cases p <;> cases q <;> first | rfl | exact absurd rfl h

/-- Two clients of a kernel, each in the middle of an operation, and the calls that they have made
so far. -/
structure Race where
  kernel : Kernel
  session : Side → Session (Except ReconcileError Unit)
  batch : Side → Batch
  calls : List (Side × Move) := []

namespace Race

/-- One of the two takes its next step. -/
def step (r : Race) (p : Side) : Race :=
  let (m, c) := (r.session p).step (⟨r.kernel, r.batch p⟩ : Client)
  { kernel := c.kernel
    session := Function.update r.session p m
    batch := Function.update r.batch p c.batch
    calls := r.calls ++ ((r.session p).move?.map (p, ·)).toList }

/-- The race after steps of both in some order. -/
def run (r : Race) (schedule : List Side) : Race := schedule.foldl step r

/-- Both install counters, whatever they had staged before. -/
def start (l : Layout) (k : Kernel) (batch : Side → Batch) (set : Side → CounterSet) : Race where
  kernel := k
  session p := l.setup (set p)
  batch := batch

variable {r : Race} {p : Side}

theorem step_eq {m : Session (Except ReconcileError Unit)} {k : Kernel} {b : Batch}
    (h : (r.session p).step (⟨r.kernel, r.batch p⟩ : Client) = (m, ⟨k, b⟩)) : r.step p =
      ⟨k, Function.update r.session p m, Function.update r.batch p b,
        r.calls ++ ((r.session p).move?.map (p, ·)).toList⟩ := by
  rw [step, h]

theorem step_of_done {a : Except ReconcileError Unit} (h : r.session p = .done a) :
    r.step p = r := by
  have hstep : (r.session p).step (⟨r.kernel, r.batch p⟩ : Client) =
      (r.session p, ⟨r.kernel, r.batch p⟩) := by
    rw [h]
    rfl
  rw [step_eq hstep, Function.update_eq_self, Function.update_eq_self, h]
  simp [Session.move?]

/-- The rule set that a call of the side has seen, when some calls came before the other's
commit. -/
def seen (l : Layout) (rs rs₁ : Ruleset) (p : Side) (pre : List (Side × Move)) (s : Stage) :
    Ruleset :=
  if (p, l.move s) ∈ pre then rs else rs₁

/-- How far two installations have come that began in a rule set: neither has committed, or one has
and has ended, or the other has as well. -/
inductive Phase (l : Layout) (rs : Ruleset) (set : Side → CounterSet) (r : Race) : Prop where
  | neither (stage : Side → Stage) (hrs : r.kernel.ruleset = rs)
    (ha : ∀ p, l.Awaits (fun _ => rs) (set p) (stage p) (r.session p) (r.batch p))
    (hcalls : ∀ p x, (p, x) ∈ r.calls ↔ ∃ s ∈ (stage p).before, l.move s = x)
  | one (p : Side) (pre mid : List (Side × Move)) (s : Stage)
    (hcalls : r.calls = pre ++ (p, .commit) :: mid)
    (hpre : ∀ q, (q, .commit) ∉ pre) (hmid : ∀ q, (q, .commit) ∉ mid)
    (h₁ : rs.applyAll (l.setupEdits rs (set p)) = .ok r.kernel.ruleset)
    (hdone : r.session p = .done (.ok ()))
    (ha : l.Awaits (seen l rs r.kernel.ruleset p.opposite pre) (set p.opposite) s
      (r.session p.opposite) (r.batch p.opposite))
    (hmade : ∀ x, (p.opposite, l.move x) ∈ pre → x ∈ s.before)
  | both (p : Side) (pre mid : List (Side × Move)) (rs₁ : Ruleset)
    (hcalls : r.calls = pre ++ (p, .commit) :: mid ++ [(p.opposite, .commit)])
    (hpre : ∀ q, (q, .commit) ∉ pre) (hmid : ∀ q, (q, .commit) ∉ mid)
    (h₁ : rs.applyAll (l.setupEdits rs (set p)) = .ok rs₁)
    (hdone : ∀ q, r.session q = .done (.ok ()))
    (ho : l.Overtakes (fun d => seen l rs rs₁ p.opposite pre (.chain d)) (set p) (set p.opposite)
      r.kernel.ruleset)

section Step
variable {l : Layout} (hr : ∀ f, r.kernel.Ready f)
include hr

/-- Until it commits, a side that installs counters leaves the kernel as it is. -/
theorem step_cases {view : Stage → Ruleset} {set : CounterSet} {s : Stage}
    (ha : l.Awaits view set s (r.session p) (r.batch p)) (hview : view s = r.kernel.ruleset) :
    (∃ m b s' made, r.step p = ⟨r.kernel, Function.update r.session p m,
        Function.update r.batch p b, r.calls ++ made⟩ ∧ l.Awaits view set s' m b ∧
        (s' = s ∧ made = [] ∨ s ≠ .commit ∧ s' = s.next ∧ made = [(p, l.move s)])) ∨
      s = .commit ∧ r.session p = l.remaining set .commit ∧
        r.batch p = l.stagedBefore view set .commit := by
  cases hm : (r.session p).move? with
  | none =>
    obtain ⟨m, b, hstep, hsettle⟩ := Session.step_of_no_move hm r.kernel (r.batch p)
    refine .inl ⟨m, b, s, [], ?_, hsettle.trans ha, .inl ⟨rfl, rfl⟩⟩
    rw [step_eq hstep, hm]
    rfl
  | some x =>
    obtain ⟨hs, hb, rfl⟩ := ha.eq_of_move hm
    by_cases hc : s = .commit
    · subst hc
      exact .inr ⟨rfl, hs, hb⟩
    · obtain ⟨m, b, hstep, hm'⟩ := Layout.awaits_step hr hc hview
      rw [← hs, ← hb] at hstep
      refine .inl ⟨m, b, s.next, [(p, l.move s)], ?_, hm', .inr ⟨hc, rfl, rfl⟩⟩
      rw [step_eq hstep, hm]
      rfl

/-- A side that commits has ended. -/
theorem step_commit {view : Stage → Ruleset} {set : CounterSet} {rs : Ruleset}
    (hs : r.session p = l.remaining set .commit) (hb : r.batch p = l.stagedBefore view set .commit)
    (h : r.kernel.ruleset.applyAll (l.stagedBefore view set .commit) = .ok rs) :
    r.step p = ⟨{ r.kernel with ruleset := rs, commits := r.kernel.commits + 1 },
      Function.update r.session p (.done (.ok ())), Function.update r.batch p [],
      r.calls ++ [(p, .commit)]⟩ := by
  have hstep := Layout.commit_step hr h
  rw [← hs, ← hb] at hstep
  rw [step_eq hstep, hs]
  rfl

variable {rs : Ruleset} {set : Side → CounterSet} (hne : l.inputChain ≠ l.outputChain)
  (hs : rs.Sound)
include hne hs

/-- While neither has committed, a step makes a lookup, or is the first commit. -/
theorem Phase.step_neither {stage : Side → Stage} (hrs : r.kernel.ruleset = rs)
    (ha : ∀ p, l.Awaits (fun _ => rs) (set p) (stage p) (r.session p) (r.batch p))
    (hcalls : ∀ p x, (p, x) ∈ r.calls ↔ ∃ s ∈ (stage p).before, l.move s = x) (q : Side) :
    (∀ f, (r.step q).kernel.Ready f) ∧ Phase l rs set (r.step q) := by
  rcases step_cases hr (ha q) hrs.symm with ⟨m, b, s', made, hstep, hm, hmade⟩ | ⟨hc, hm, hb⟩
  · rw [hstep]
    refine ⟨hr, .neither (Function.update stage q s') hrs (fun p => ?_) (fun p x => ?_)⟩
    · by_cases hp : p = q
      · subst hp
        simpa using hm
      · simpa [hp] using ha p
    · rw [List.mem_append, hcalls]
      by_cases hp : p = q
      · subst hp
        rcases hmade with ⟨rfl, rfl⟩ | ⟨hc, rfl, rfl⟩
        · simp
        · simp [Stage.before_next hc, or_and_right, exists_or, eq_comm]
      · rcases hmade with ⟨rfl, rfl⟩ | ⟨hc, rfl, rfl⟩ <;> simp [hp]
  · obtain ⟨rs₁, h₁, -⟩ := Layout.exists_replaces hne hs (set q)
    have happly : r.kernel.ruleset.applyAll
        (l.stagedBefore (fun _ => rs) (set q) .commit) = .ok rs₁ := by rw [hrs]; exact h₁
    have hmade (p : Side) (x : Stage) (hx : (p, l.move x) ∈ r.calls) : x ∈ (stage p).before := by
      obtain ⟨s, hs, he⟩ := (hcalls p (l.move x)).1 hx
      exact Layout.move_inj hne he ▸ hs
    rw [step_commit hr hm hb happly]
    refine ⟨hr, .one q r.calls [] (stage q.opposite) rfl (fun p hp => ?_) (by simp) h₁ (by simp)
      ?_ (hmade q.opposite)⟩
    · exact Stage.commit_not_mem_before _ (hmade p .commit hp)
    · simp only [Function.update_of_ne q.opposite_ne]
      exact (ha q.opposite).congr fun x hx => if_pos ((hcalls _ _).2 ⟨x, hx, rfl⟩)

/-- When one has committed, a step of the other makes a lookup, or is the last commit. -/
theorem Phase.step_one {pre mid : List (Side × Move)} {s : Stage}
    (hcalls : r.calls = pre ++ (p, .commit) :: mid) (hpre : ∀ q, (q, .commit) ∉ pre)
    (hmid : ∀ q, (q, .commit) ∉ mid)
    (h₁ : rs.applyAll (l.setupEdits rs (set p)) = .ok r.kernel.ruleset)
    (hdone : r.session p = .done (.ok ()))
    (ha : l.Awaits (seen l rs r.kernel.ruleset p.opposite pre) (set p.opposite) s
      (r.session p.opposite) (r.batch p.opposite))
    (hmade : ∀ x, (p.opposite, l.move x) ∈ pre → x ∈ s.before) :
    (∀ f, (r.step p.opposite).kernel.Ready f) ∧ Phase l rs set (r.step p.opposite) := by
  -- the next call of the other comes after the commit, so it sees what is there now
  have hseen : seen l rs r.kernel.ruleset p.opposite pre s = r.kernel.ruleset :=
    if_neg fun hm => s.not_mem_before (hmade s hm)
  rcases step_cases hr ha hseen with ⟨m, b, s', made, hstep, hm, hnext⟩ | ⟨rfl, hm, hb⟩
  · have hkept : (∀ q, (q, .commit) ∉ made) ∧ ∀ x ∈ s.before, x ∈ s'.before := by
      rcases hnext with ⟨rfl, rfl⟩ | ⟨hc, rfl, rfl⟩
      · exact ⟨by simp, fun _ hx => hx⟩
      · refine ⟨fun q hq => ?_, fun x hx => ?_⟩
        · have hmove : l.move .commit = l.move s := (Prod.mk.inj (List.mem_singleton.1 hq)).2
          exact hc (Layout.move_inj hne hmove).symm
        · rw [Stage.before_next hc]
          exact List.mem_append_left _ hx
    rw [hstep]
    refine ⟨hr, .one p pre (mid ++ made) s' (by rw [hcalls]; simp) hpre (fun q hq => ?_) h₁ ?_ ?_
      fun x hx => hkept.2 x (hmade x hx)⟩
    · exact (List.mem_append.1 hq).elim (hmid q) (hkept.1 q)
    · simpa [p.opposite_ne.symm] using hdone
    · simpa using hm
  · have hsound (d : Direction) :
        (seen l rs r.kernel.ruleset p.opposite pre (.chain d)).Sound := by
      unfold seen
      split
      · exact hs
      · exact hs.applyAll h₁
    obtain ⟨rs₂, h₂, ho⟩ := Layout.exists_overtakes hne hs h₁ (set p.opposite)
      (seen l rs r.kernel.ruleset p.opposite pre .table) hsound
    rw [step_commit hr hm hb h₂]
    refine ⟨hr, .both p pre mid r.kernel.ruleset (by rw [hcalls]) hpre hmid h₁ (fun q => ?_) ho⟩
    by_cases hq : q = p
    · subst hq
      simpa [q.opposite_ne.symm] using hdone
    · rw [Side.eq_opposite_of_ne hq]
      exact Function.update_self ..

theorem Phase.step (h : Phase l rs set r) (q : Side) :
    (∀ f, (r.step q).kernel.Ready f) ∧ Phase l rs set (r.step q) := by
  cases h with
  | neither stage hrs ha hcalls => exact step_neither hr hne hs hrs ha hcalls q
  | one p pre mid s hcalls hpre hmid h₁ hdone ha hmade =>
    by_cases hq : q = p
    · subst hq
      rw [step_of_done hdone]
      exact ⟨hr, .one q pre mid s hcalls hpre hmid h₁ hdone ha hmade⟩
    · obtain rfl := Side.eq_opposite_of_ne hq
      exact step_one hr hne hs hcalls hpre hmid h₁ hdone ha hmade
  | both p pre mid rs₁ hcalls hpre hmid h₁ hdone ho =>
    rw [step_of_done (hdone q)]
    exact ⟨hr, .both p pre mid rs₁ hcalls hpre hmid h₁ hdone ho⟩

theorem Phase.run (h : Phase l rs set r) (schedule : List Side) :
    (∀ f, (r.run schedule).kernel.Ready f) ∧ Phase l rs set (r.run schedule) := by
  induction schedule generalizing r with
  | nil => exact ⟨hr, h⟩
  | cons q schedule ih =>
    obtain ⟨hr', h'⟩ := h.step hr hne hs q
    exact ih hr' h'

end Step

variable {l : Layout} {k : Kernel}

/-- Installations that race and have both ended have both succeeded. One has committed last: each of
its chains has its rules, behind those of the other if the chain was not there in the beginning and
was looked up before the other committed, and no others. -/
theorem run_race (hne : l.inputChain ≠ l.outputChain) (hr : ∀ f, k.Ready f) (hs : k.ruleset.Sound)
    (batch : Side → Batch) (set : Side → CounterSet) (schedule : List Side)
    (hdone : ∀ p, (((start l k batch set).run schedule).session p).result?.isSome) :
    let r := (start l k batch set).run schedule
    (∀ p, (r.session p).result? = some (.ok ())) ∧
    ∃ last pre mid, r.calls = pre ++ (last.opposite, .commit) :: mid ++ [(last, .commit)] ∧
      (∀ p, (p, .commit) ∉ pre ++ mid) ∧
      ∀ d, (r.kernel.ruleset.findChain? l.table (l.chainName d)).map ChainState.chain =
          some (l.chain d) ∧
        (r.kernel.ruleset.rules l.table (l.chainName d)).map Rule.withoutHandle =
          (if k.ruleset.findChain? l.table (l.chainName d) = none ∧
              (last, .lookupChain l.table (l.chainName d)) ∈ pre then
            l.staged (set last.opposite) d else []) ++ l.staged (set last) d := by
  have hstart : Phase l k.ruleset set (start l k batch set) :=
    .neither (fun _ => .table) rfl (fun p => Layout.awaits_setup _ (set p) (batch p))
      (by simp [start, Stage.before])
  obtain ⟨-, h⟩ := hstart.run hr hne hs schedule
  generalize (start l k batch set).run schedule = r at h hdone ⊢
  cases h with
  | neither stage hrs ha hcalls =>
    have hd := hdone .left
    rw [(ha .left).result?_eq_none] at hd
    cases hd
  | one p pre mid s hcalls hpre hmid h₁ hd ha hmade =>
    have hd := hdone p.opposite
    rw [ha.result?_eq_none] at hd
    cases hd
  | both p pre mid rs₁ hcalls hpre hmid h₁ hd ho =>
    refine ⟨fun q => by rw [hd q]; rfl, p.opposite, pre, mid, by rwa [p.opposite_opposite],
      fun q hq => (List.mem_append.1 hq).elim (hpre q) (hmid q), fun d => ⟨ho.chain d, ?_⟩⟩
    have hthere : rs₁.findChain? l.table (l.chainName d) ≠ none := by
      obtain ⟨rs', h', hreplaces⟩ := Layout.exists_replaces hne hs (set p)
      obtain rfl := Except.ok.inj (h₁.symm.trans h')
      intro hnone
      have hchain := hreplaces.chain d
      rw [hnone] at hchain
      cases hchain
    have hmissed : (seen l k.ruleset rs₁ p.opposite pre (.chain d)).findChain? l.table
        (l.chainName d) = none ↔ k.ruleset.findChain? l.table (l.chainName d) = none ∧
          (p.opposite, .lookupChain l.table (l.chainName d)) ∈ pre := by
      by_cases hm : (p.opposite, l.move (.chain d)) ∈ pre
      · rw [seen, if_pos hm]
        exact (and_iff_left hm).symm
      · rw [seen, if_neg hm]
        exact iff_of_false hthere fun h => hm h.2
    rw [ho.rules d, if_congr hmissed rfl rfl, p.opposite_opposite]

/-- Counters of one label for each side. -/
def labelled : Side → CounterSet
  | .left => ⟨[{ label := "left" }], [{ label := "left" }]⟩
  | .right => ⟨[{ label := "right" }], [{ label := "right" }]⟩

/-- A kernel whose table has an input chain, with a rule of someone else's, and no output chain. -/
def halfInstalled : Kernel where
  ruleset := {
    tables := [⟨⟨.ip, "flowmon"⟩, [⟨.base ⟨.ip, "flowmon"⟩ "input" .output 5,
      [{ table := ⟨.ip, "flowmon"⟩, chain := "input", handle := some 3,
         exprs := [.other "immediate"] }]⟩]⟩]
    lastHandle := 3 }

/-- One side looks everything up, the other installs, and then the first commits. -/
def overtaken : List Side := .replicate 7 .right ++ .replicate 8 .left ++ [.right]

theorem run_race_halfInstalled :
    (∀ p, (((start {} halfInstalled (fun _ => [.deleteTable ⟨.ip, "nat"⟩]) labelled).run
      (overtaken.drop 1)).session p).result?.isSome) ∧
    let r := (start {} halfInstalled (fun _ => [.deleteTable ⟨.ip, "nat"⟩]) labelled).run
      (overtaken.drop 1)
    (∀ p, (r.session p).result? = some (.ok ())) ∧
    ∃ last pre mid, r.calls = pre ++ (last.opposite, .commit) :: mid ++ [(last, .commit)] ∧
      (∀ p, (p, .commit) ∉ pre ++ mid) ∧
      ∀ d, (r.kernel.ruleset.findChain? ⟨.ip, "flowmon"⟩ (({} : Layout).chainName d)).map
          ChainState.chain = some (({} : Layout).chain d) ∧
        (r.kernel.ruleset.rules ⟨.ip, "flowmon"⟩ (({} : Layout).chainName d)).map
            Rule.withoutHandle =
          (if halfInstalled.ruleset.findChain? ⟨.ip, "flowmon"⟩ (({} : Layout).chainName d) = none ∧
              (last, .lookupChain ⟨.ip, "flowmon"⟩ (({} : Layout).chainName d)) ∈ pre then
            Layout.staged {} (labelled last.opposite) d else []) ++
              Layout.staged {} (labelled last) d := by
  have hr : ∀ f, halfInstalled.Ready f := by
    intro f
    cases f <;> decide
  have hs : halfInstalled.ruleset.Sound := by
    refine ⟨by decide, ?_⟩
    simp only [halfInstalled, List.forall_mem_cons, List.not_mem_nil, false_imp_iff, implies_true,
      and_true]
    exact ⟨by decide, by decide⟩
  have hdone : ∀ p, (((start {} halfInstalled (fun _ => [.deleteTable ⟨.ip, "nat"⟩]) labelled).run
      (overtaken.drop 1)).session p).result?.isSome := by
    intro p
    cases p <;> decide +kernel
  exact ⟨hdone, run_race (by decide) hr hs _ labelled _ hdone⟩

/-- With nothing there in the beginning, both chains have the rules of both in the end. -/
theorem rules_mixed :
    let r := (start {} {} (fun _ => []) labelled).run overtaken
    (r.session .left).result? = some (.ok ()) ∧ (r.session .right).result? = some (.ok ()) ∧
    r.calls.getLast? = some (.right, .commit) ∧
    (r.kernel.ruleset.rules ⟨.ip, "flowmon"⟩ "input").map Rule.withoutHandle =
      Layout.staged {} (labelled .left) .input ++ Layout.staged {} (labelled .right) .input ∧
    (r.kernel.ruleset.rules ⟨.ip, "flowmon"⟩ "input").map Rule.withoutHandle ≠
      Layout.staged {} (labelled .right) .input := by
  decide +kernel

end Race

end FlowTally
