import FlowTally.Proofs.Acknowledging
import FlowTally.Proofs.Reconciling
/-!
# What a call leaves in the batch

Installing, listing and removing run over any transport whose batch changes by nothing but staging
and committing (`LawfulTransport`). Whatever its lookups, resets and commits answer, and whatever
others have staged before, a call commits what it has staged itself, at most once and after all its
lookups were answered, and leaves nothing behind. `Layout.contained_of_mem_course` says so of every
call in a run of them. An installation is followed lookup by lookup (`Operation.Gathers`).
-/

namespace FlowTally

open Transport (batch)

/-! ## Transports -/

/-- A transport whose batch is what was staged since it was emptied last. A commit empties it,
however it ends. -/
class LawfulTransport (σ : Type) [Transport σ] : Prop where
  batch_withBatch (b : Batch) (s : σ) : batch (Transport.withBatch b s) = b
  batch_lookupTable (family : Family) (name : String) (s : σ) :
    batch (Transport.lookupTable family name s).2 = batch s
  batch_lookupChain (t : Table) (name : String) (s : σ) :
    batch (Transport.lookupChain t name s).2 = batch s
  batch_drainRules (t : Table) (chain : Chain) (s : σ) :
    batch (Transport.drainRules t chain s).2 = batch s
  batch_commit (s : σ) : batch (Transport.commit s).2 = []

open LawfulTransport

attribute [simp] batch_withBatch batch_lookupTable batch_lookupChain batch_drainRules batch_commit

instance : LawfulTransport Kernel.Client where
  batch_withBatch _ _ := rfl
  batch_lookupTable _ _ _ := rfl
  batch_lookupChain _ _ _ := rfl
  batch_drainRules _ _ _ := rfl
  batch_commit _ := rfl

instance : LawfulTransport Netlink.Connection :=
  have hask {α : Type} (payload : Except EncodeError Bytes) (r : Bytes → Netlink.Request)
      (read : List Wire.Message → Except TransportError α) (c : Netlink.Connection) :
      (Netlink.Connection.ask payload r read c).2.batch = c.batch := by
    cases payload <;> rfl
  { batch_withBatch := fun _ _ => rfl
    batch_lookupTable := fun _ _ c => hask _ _ _ c
    batch_lookupChain := fun _ _ c => hask _ _ _ c
    batch_drainRules := fun _ _ c => hask _ _ _ c
    batch_commit := fun c => Netlink.Connection.batch_commit c }

section Batches
variable {σ : Type} [Transport σ] [LawfulTransport σ]

@[simp]
theorem batch_stage (edits : List Edit) (s : σ) :
    batch (Transport.stage edits s) = batch s ++ edits := by
  simp [Transport.stage]

@[simp]
theorem batch_discard (s : σ) : batch (Transport.discard s) = [] := by simp [Transport.discard]

end Batches

/-! ## What a session hears -/

namespace Session

/-- A call of a session and its answer. A commit comes with the batch as it was then. -/
inductive Exchange where
  | lookupTable (family : Family) (name : String) (answer : Except TransportError Table)
  | lookupChain (table : Table) (name : String) (answer : Except TransportError Chain)
  | drainRules (table : Table) (chain : Chain) (answer : Except TransportError (List Rule))
  | commit (batch : Batch) (answer : Except TransportError Unit)
  deriving DecidableEq

/-- The answer to a lookup that says what is there, if anything. -/
inductive Tells {α : Type} : Except TransportError α → Option α → Prop where
  | found (a : α) : Tells (.ok a) (some a)
  | missing (what : String) : Tells (.error (.notFound what)) none

theorem tells_or_not {α : Type} (answer : Except TransportError α) :
    (∃ found, Tells answer found) ∨
      ∃ e, answer = .error e ∧ (∀ what, e ≠ .notFound what) ∧ ∀ found, ¬ Tells answer found := by
  rcases answer with e | a
  · by_cases h : ∃ what, e = .notFound what
    · obtain ⟨what, rfl⟩ := h
      exact .inl ⟨_, .missing what⟩
    · refine .inr ⟨e, rfl, fun what he => h ⟨what, he⟩, ?_⟩
      rintro found ⟨⟩
      exact h ⟨_, rfl⟩
  · exact .inl ⟨_, .found a⟩

namespace Exchange

def isCommit : Exchange → Bool
  | commit .. => true
  | _ => false

/-- A lookup that was answered, if only that there is no such thing. -/
def Answered : Exchange → Prop
  | lookupTable _ _ answer => ∃ found, Tells answer found
  | lookupChain _ _ answer => ∃ found, Tells answer found
  | drainRules .. | commit .. => False

/-- A lookup that was not answered. -/
def Unanswered : Exchange → Prop
  | lookupTable _ _ answer => ∀ found, ¬ Tells answer found
  | lookupChain _ _ answer => ∀ found, ¬ Tells answer found
  | drainRules .. | commit .. => False

theorem Answered.isCommit {x : Exchange} (h : x.Answered) : x.isCommit = false := by
  cases x <;> first | rfl | exact h.elim

theorem Unanswered.isCommit {x : Exchange} (h : x.Unanswered) : x.isCommit = false := by
  cases x <;> first | rfl | exact h.elim

theorem Unanswered.not_answered {x : Exchange} (h : x.Unanswered) : ¬ x.Answered := by
  cases x with
  | lookupTable | lookupChain => rintro ⟨found, hf⟩; exact h found hf
  | drainRules | commit => exact h.elim

end Exchange

variable {α β σ : Type} [Transport σ]

/-- The exchanges of a run of the session. -/
def exchanges : Session α → σ → List Exchange
  | done _, _ => []
  | lookupTable family name next, s =>
    let (r, s) := Transport.lookupTable family name s
    .lookupTable family name r :: (next r).exchanges s
  | lookupChain table name next, s =>
    let (r, s) := Transport.lookupChain table name s
    .lookupChain table name r :: (next r).exchanges s
  | drainRules table chain next, s =>
    let (r, s) := Transport.drainRules table chain s
    .drainRules table chain r :: (next r).exchanges s
  | stage edits next, s => next.exchanges (Transport.stage edits s)
  | discard next, s => next.exchanges (Transport.discard s)
  | commit next, s =>
    let (r, s') := Transport.commit s
    .commit (batch s) r :: (next r).exchanges s'

theorem exchanges_bind (m : Session α) (f : α → Session β) (s : σ) :
    (m.bind f).exchanges s = m.exchanges s ++ (f (m.run s).1).exchanges (m.run s).2 := by
  induction m generalizing s with
  | done a => rfl
  | lookupTable family name next ih => exact congrArg _ (ih _ _)
  | lookupChain table name next ih => exact congrArg _ (ih _ _)
  | drainRules table chain next ih => exact congrArg _ (ih _ _)
  | stage edits next ih => exact ih _
  | discard next ih => exact ih _
  | commit next ih => exact congrArg _ (ih _ _)

/-- The session only looks up and reads. -/
def Queries : Session α → Prop
  | done _ => True
  | lookupTable _ _ next => ∀ r, (next r).Queries
  | lookupChain _ _ next => ∀ r, (next r).Queries
  | drainRules _ _ next => ∀ r, (next r).Queries
  | stage .. | discard _ | commit _ => False

namespace Queries

theorem bind {m : Session α} {f : α → Session β} (h : m.Queries) (h' : ∀ a, (f a).Queries) :
    (m.bind f).Queries := by
  induction m with
  | done a => exact h' a
  | lookupTable family name next ih => exact fun r => ih r (h r)
  | lookupChain table name next ih => exact fun r => ih r (h r)
  | drainRules table chain next ih => exact fun r => ih r (h r)
  | stage | discard | commit => exact h.elim

theorem batch_run [LawfulTransport σ] {m : Session α} (h : m.Queries) (s : σ) :
    batch (m.run s).2 = batch s := by
  induction m generalizing s with
  | done a => rfl
  | lookupTable family name next ih => exact (ih _ (h _) _).trans (batch_lookupTable family name s)
  | lookupChain table name next ih => exact (ih _ (h _) _).trans (batch_lookupChain table name s)
  | drainRules table chain next ih => exact (ih _ (h _) _).trans (batch_drainRules table chain s)
  | stage | discard | commit => exact h.elim

theorem isCommit {m : Session α} (h : m.Queries) (s : σ) :
    ∀ x ∈ m.exchanges s, x.isCommit = false := by
  induction m generalizing s with
  | done a => simp [exchanges]
  | lookupTable family name next ih => exact List.forall_mem_cons.2 ⟨rfl, ih _ (h _) _⟩
  | lookupChain table name next ih => exact List.forall_mem_cons.2 ⟨rfl, ih _ (h _) _⟩
  | drainRules table chain next ih => exact List.forall_mem_cons.2 ⟨rfl, ih _ (h _) _⟩
  | stage | discard | commit => exact h.elim

end Queries

end Session

open Session (Exchange Tells)

namespace Operation

variable {σ α β : Type} [Transport σ]

theorem exchanges_bind (m : Operation α) (f : α → Operation β) (s : σ) :
    (m >>= f).run.exchanges s = m.run.exchanges s ++ match m.run.run s with
      | (.ok a, s) => (f a).run.exchanges s
      | (.error _, _) => [] := by
  refine (Session.exchanges_bind m.run _ s).trans ?_
  generalize m.run.run s = r
  obtain ⟨r, s'⟩ := r
  cases r <;> rfl

theorem queries_bind {m : Operation α} {f : α → Operation β} (h : m.run.Queries)
    (h' : ∀ a, (f a).run.Queries) : (m >>= f).run.Queries := by
  refine Session.Queries.bind h fun r => ?_
  cases r with
  | ok a => exact h' a
  | error e => trivial

/-- The ways in which an operation can end that looks up and stages: all lookups were answered, and
the edits staged go with the answers, or one lookup was not answered, and it was the last. -/
inductive Gathers (P : List Exchange → List Edit → Prop) (m : Operation Unit) (s : σ) : Prop where
  | staged {s' : σ} {edits : List Edit} (hrun : m.run.run s = (.ok (), s'))
    (hlog : ∀ x ∈ m.run.exchanges s, x.Answered) (hp : P (m.run.exchanges s) edits)
    (hb : batch s' = batch s ++ edits)
  | stopped (log : List Exchange) {s' : σ} {e : ReconcileError} {x : Exchange}
    (hrun : m.run.run s = (.error e, s')) (heq : m.run.exchanges s = log ++ [x])
    (hlog : ∀ y ∈ log, y.Answered) (hx : x.Unanswered)

/-- Two operations one behind the other gather what both gather. -/
theorem Gathers.bind {P Q : List Exchange → List Edit → Prop} {m : Operation Unit}
    {f : Unit → Operation Unit} {s : σ} (h : Gathers P m s) (h' : ∀ s' : σ, Gathers Q (f ()) s') :
    Gathers (fun log edits => ∃ log₁ log₂ edits₁ edits₂, log = log₁ ++ log₂ ∧
      edits = edits₁ ++ edits₂ ∧ P log₁ edits₁ ∧ Q log₂ edits₂) (m >>= f) s := by
  cases h with
  | stopped log hrun heq hlog hx =>
    refine .stopped log (by rw [run_bind, hrun]) ?_ hlog hx
    rw [exchanges_bind, hrun, heq, List.append_nil]
  | @staged s' edits hrun hlog hp hb =>
    have hlog' : (m >>= f).run.exchanges s = m.run.exchanges s ++ (f ()).run.exchanges s' := by
      rw [exchanges_bind, hrun]
    cases h' s' with
    | @stopped log s'' e x hrun' heq hlog₂ hx =>
      have hrun'' : (m >>= f).run.run s = (.error e, s'') := by rw [run_bind, hrun]; exact hrun'
      refine .stopped (m.run.exchanges s ++ log) hrun'' ?_ ?_ hx
      · rw [hlog', heq, List.append_assoc]
      · exact fun y hy => (List.mem_append.1 hy).elim (hlog y) (hlog₂ y)
    | @staged s'' edits' hrun' hlog₂ hq hb' =>
      have hrun'' : (m >>= f).run.run s = (.ok (), s'') := by rw [run_bind, hrun]; exact hrun'
      have hb'' : batch s'' = batch s ++ (edits ++ edits') := by
        rw [hb', hb, List.append_assoc]
      refine .staged hrun'' ?_ ?_ hb''
      · rw [hlog']
        exact fun y hy => (List.mem_append.1 hy).elim (hlog y) (hlog₂ y)
      · exact ⟨_, _, _, _, hlog', rfl, hp, hq⟩

end Operation

/-! ## Calls on a layout -/

namespace Layout

variable (l : Layout) {σ : Type} [Transport σ]

/-- A call on a layout. -/
inductive Action where
  | setup (set : CounterSet)
  | listCounters
  | cleanup
  deriving DecidableEq

namespace Action

/-- The transport after the call. -/
def run : Action → σ → σ
  | setup set, s => ((l.setup set).run s).2
  | listCounters, s => (l.listCounters.run.run s).2
  | cleanup, s => (l.cleanup.run s).2

def exchanges : Action → σ → List Exchange
  | setup set, s => (l.setup set).exchanges s
  | listCounters, s => l.listCounters.run.exchanges s
  | cleanup, s => l.cleanup.exchanges s

/-- What a call stages once its lookups were answered so. -/
inductive Stages : Action → List Exchange → Batch → Prop where
  | setup {set : CounterSet} {table : Except TransportError Table}
    {input output : Except TransportError Chain} {t : Option Table} {i o : Option Chain}
    (ht : Tells table t) (hi : Tells input i) (ho : Tells output o) :
    Stages (.setup set)
      [.lookupTable l.family l.tableName table, .lookupChain l.table l.inputChain input,
        .lookupChain l.table l.outputChain output]
      ((if t.isSome then [] else [.addTable l.table]) ++
        (l.chainEdits .input i set.input ++ l.chainEdits .output o set.output))
  | cleanup {t : Table} : Stages .cleanup [.lookupTable l.family l.tableName (.ok t)]
      [.flushTable t, .deleteTable t]

/-- All lookups that a call stages by were answered. -/
theorem Stages.answered {a : Action} {log : List Exchange} {b : Batch} (h : Stages l a log b) :
    ∀ x ∈ log, x.Answered := by
  cases h with
  | setup ht hi ho =>
    exact List.forall_mem_cons.2 ⟨⟨_, ht⟩, List.forall_mem_cons.2 ⟨⟨_, hi⟩,
      List.forall_mem_singleton.2 ⟨_, ho⟩⟩⟩
  | cleanup => exact List.forall_mem_singleton.2 ⟨_, .found _⟩

/-- What a call leaves of what was in the batch. -/
def leaves : Action → Batch → Batch
  | listCounters, b => b
  | setup _, _ | cleanup, _ => []

/-- What a call leaves in the batch, and what it commits: nothing, unless it has staged something by
the answers to its lookups, and then just this. -/
structure Contained (a : Action) (s : σ) : Prop where
  batch : Transport.batch (a.run l s) = a.leaves (Transport.batch s)
  commits : (∃ log b answer, a.exchanges l s = log ++ [.commit b answer] ∧
      (∀ x ∈ log, x.Answered) ∧ Stages l a log b) ∨
    (∀ x ∈ a.exchanges l s, x.isCommit = false) ∧ ∀ b, ¬ Stages l a (a.exchanges l s) b

end Action

/-- The transport after a run of calls. Others may stage edits before each of them. -/
def finish : List (List Edit × Action) → σ → σ
  | [], s => s
  | (edits, a) :: rest, s => finish rest (a.run l (Transport.stage edits s))

/-- The calls of a run, each with the transport as it finds it. -/
def course : List (List Edit × Action) → σ → List (Action × σ)
  | [], _ => []
  | (edits, a) :: rest, s =>
    (a, Transport.stage edits s) :: course rest (a.run l (Transport.stage edits s))

/-! ## What each call commits and leaves -/

variable [LawfulTransport σ]

theorem stageTable_gathers (s : σ) :
    Operation.Gathers (fun log edits => ∃ answer found, Tells answer found ∧
      log = [.lookupTable l.family l.tableName answer] ∧
      edits = if found.isSome then [] else [.addTable l.table]) l.stageTable s := by
  have hb := batch_lookupTable l.family l.tableName s
  cases hr : Transport.lookupTable l.family l.tableName s with
  | mk answer s' =>
    rw [hr] at hb
    have hlog : l.stageTable.run.exchanges s = [.lookupTable l.family l.tableName answer] := by
      rcases answer with e | t
      · cases e <;> simp [stageTable, Session.exchanges, hr]
      · simp [stageTable, Session.exchanges, hr]
    rcases Session.tells_or_not answer with ⟨found, hf⟩ | ⟨e, rfl, hne, hn⟩
    · have hanswered : ∀ x ∈ l.stageTable.run.exchanges s, x.Answered := by
        rw [hlog]
        exact List.forall_mem_singleton.2 ⟨found, hf⟩
      have hrun : l.stageTable.run.run s =
          (.ok (), if found.isSome then s' else Transport.stage [.addTable l.table] s') := by
        cases hf <;> simp [stageTable, Session.run, hr]
      refine .staged hrun hanswered ⟨answer, found, hf, hlog, rfl⟩ ?_
      cases hf <;> simp [hb]
    · have hrun : l.stageTable.run.run s = (.error (.setupFailed (.table l.table) e), s') := by
        cases e <;> first | exact absurd rfl (hne _) | simp [stageTable, Session.run, hr]
      exact .stopped [] hrun hlog (by simp) hn

theorem stageChain_gathers (d : Direction) (cs : List Counter) (s : σ) :
    Operation.Gathers (fun log edits => ∃ answer found, Tells answer found ∧
      log = [.lookupChain l.table (l.chainName d) answer] ∧ edits = l.chainEdits d found cs)
      (l.stageChain d cs) s := by
  have hb := batch_lookupChain l.table (l.chainName d) s
  cases hr : Transport.lookupChain l.table (l.chainName d) s with
  | mk answer s' =>
    rw [hr] at hb
    have hlog : (l.stageChain d cs).run.exchanges s =
        [.lookupChain l.table (l.chainName d) answer] := by
      rcases answer with e | t
      · cases e <;> simp [stageChain, Session.exchanges, hr]
      · simp [stageChain, Session.exchanges, hr]
    rcases Session.tells_or_not answer with ⟨found, hf⟩ | ⟨e, rfl, hne, hn⟩
    · have hanswered : ∀ x ∈ (l.stageChain d cs).run.exchanges s, x.Answered := by
        rw [hlog]
        exact List.forall_mem_singleton.2 ⟨found, hf⟩
      have hrun : (l.stageChain d cs).run.run s =
          (.ok (), Transport.stage (l.chainEdits d found cs) s') := by
        cases hf <;> simp [stageChain, Session.run, hr]
      exact .staged hrun hanswered ⟨answer, found, hf, hlog, rfl⟩ (by simp [hb])
    · have hrun : (l.stageChain d cs).run.run s =
          (.error (.setupFailed (.chain (l.chainName d)) e), s') := by
        cases e <;> first | exact absurd rfl (hne _) | simp [stageChain, Session.run, hr]
      exact .stopped [] hrun hlog (by simp) hn

theorem stageSetup_gathers (set : CounterSet) (s : σ) :
    Operation.Gathers (Action.Stages l (.setup set)) (l.stageSetup set) s := by
  have h : Operation.Gathers _ (l.stageSetup set) s :=
    (l.stageTable_gathers s).bind fun s' => (l.stageChain_gathers .input set.input s').bind
      fun s'' => l.stageChain_gathers .output set.output s''
  cases h with
  | stopped log hrun heq hlog hx => exact .stopped log hrun heq hlog hx
  | staged hrun hlog hp hb =>
    obtain ⟨_, _, _, _, heq, rfl, ⟨_, t, ht, rfl, rfl⟩, _, _, _, _, rfl, rfl, ⟨_, i, hi, rfl, rfl⟩,
      _, o, ho, rfl, rfl⟩ := hp
    exact .staged hrun hlog (heq ▸ .setup ht hi ho) hb

theorem setup_contained (set : CounterSet) (s : σ) : (Action.setup set).Contained l s := by
  -- The batch is empty when staging starts, so what is staged is all that is committed.
  have hrun : (Action.setup set).run l s = _ := congrArg Prod.snd
    (Session.run_bind (l.stageSetup set).run _ (Transport.discard s))
  have hlog : (Action.setup set).exchanges l s = _ :=
    Session.exchanges_bind (l.stageSetup set).run _ (Transport.discard s)
  cases l.stageSetup_gathers set (Transport.discard s) with
  | staged hstage hanswered hp hb =>
    rw [hstage] at hrun hlog
    refine ⟨?_, .inl ⟨_, _, _, hlog, hanswered, ?_⟩⟩
    · rw [hrun]
      exact batch_commit _
    · rw [hb, batch_discard]
      exact hp
  | stopped log hstage heq hanswered hx =>
    rw [hstage] at hrun hlog
    have hlog : (Action.setup set).exchanges l s = _ := hlog.trans (List.append_nil _)
    rw [heq] at hlog
    refine ⟨?_, .inr ?_⟩
    · rw [hrun]
      exact batch_discard _
    · rw [hlog]
      refine ⟨List.forall_mem_append.2 ⟨fun x h => (hanswered x h).isCommit,
        List.forall_mem_singleton.2 hx.isCommit⟩, fun b h => ?_⟩
      exact hx.not_answered (h.answered _ _ (by simp))

theorem queries_listCounters : l.listCounters.run.Queries := by
  have htable : l.findTable.run.Queries := by
    intro r
    rcases r with e | t
    · cases e <;> trivial
    · trivial
  have hlist (t : Table) (d : Direction) : (l.listDirection t d).run.Queries := by
    intro r
    rcases r with e | chain
    · cases e <;> trivial
    · intro r
      cases r <;> trivial
  exact Operation.queries_bind htable fun t => Operation.queries_bind (hlist t _) fun _ =>
    Operation.queries_bind (hlist t _) fun _ => trivial

theorem listCounters_contained (s : σ) : Action.listCounters.Contained l s :=
  ⟨l.queries_listCounters.batch_run s, .inr ⟨l.queries_listCounters.isCommit s, nofun⟩⟩

theorem cleanup_contained (s : σ) : Action.cleanup.Contained l s := by
  have hb := batch_lookupTable l.family l.tableName (Transport.discard s)
  cases hr : Transport.lookupTable l.family l.tableName (Transport.discard s) with
  | mk answer s' =>
    rw [hr, batch_discard] at hb
    cases answer with
    | ok t =>
      have hlog : Action.cleanup.exchanges l s =
          [.lookupTable l.family l.tableName (.ok t)] ++ [.commit [.flushTable t, .deleteTable t]
            (Transport.commit (Transport.stage [.flushTable t, .deleteTable t] s')).1] := by
        simp [Action.exchanges, cleanup, Session.exchanges, hr, hb]
      refine ⟨?_, .inl ⟨_, _, _, hlog, Action.Stages.cleanup.answered, .cleanup⟩⟩
      simp [Action.run, Action.leaves, cleanup, Session.run, hr]
    | error e =>
      have hlog : Action.cleanup.exchanges l s =
          [.lookupTable l.family l.tableName (.error e)] := by
        cases e <;> simp [Action.exchanges, cleanup, Session.exchanges, hr]
      refine ⟨?_, .inr ⟨by simp [hlog, Exchange.isCommit], fun b h => ?_⟩⟩
      · cases e <;> simp [Action.run, Action.leaves, cleanup, Session.run, hr, hb]
      · rw [hlog] at h
        cases h

theorem contained (a : Action) (s : σ) : a.Contained l s := by
  cases a with
  | setup set => exact l.setup_contained set s
  | listCounters => exact l.listCounters_contained s
  | cleanup => exact l.cleanup_contained s

/-- Every call in a run keeps to what it has staged itself, and in the end the batch holds what
others have staged since the last installation or removal. -/
theorem contained_of_mem_course (calls : List (List Edit × Action)) (s : σ) :
    (∀ v ∈ l.course calls s, v.1.Contained l v.2) ∧
      batch (l.finish calls s) =
        calls.foldl (fun b call => call.2.leaves (b ++ call.1)) (batch s) := by
  induction calls generalizing s with
  | nil => exact ⟨by simp [course], rfl⟩
  | cons call rest ih =>
    obtain ⟨edits, a⟩ := call
    have ha := l.contained a (Transport.stage edits s)
    obtain ⟨hrest, hbatch⟩ := ih (a.run l (Transport.stage edits s))
    refine ⟨List.forall_mem_cons.2 ⟨ha, hrest⟩, ?_⟩
    rw [finish, hbatch, ha.batch, batch_stage, List.foldl_cons]

/-- A client of a kernel that refuses one commit, with an edit of another table in its batch. -/
def laden : Kernel.Client :=
  ⟨({} : Kernel).failNext .commit 1, [.deleteTable ⟨.inet, "nat"⟩]⟩

theorem contained_of_mem_course_laden :
    let calls : List (List Edit × Action) :=
      [([], .setup { input := [{ label := "web" }] }),
        ([.addTable ⟨.ip, "spare"⟩], .listCounters), ([], .setup {}), ([], .cleanup),
        ([.addTable ⟨.ip, "late"⟩], .listCounters)]
    (∀ v ∈ (default : Layout).course calls laden, v.1.Contained default v.2) ∧
      batch ((default : Layout).finish calls laden) = [.addTable ⟨.ip, "late"⟩] :=
  contained_of_mem_course default _ laden

end Layout

end FlowTally
