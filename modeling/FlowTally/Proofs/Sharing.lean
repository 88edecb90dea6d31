import FlowTally.Proofs.Effects
import FlowTally.Proofs.Interference
import FlowTally.Proofs.Placement
/-!
# Clients that share a kernel

Any number of clients call one kernel, each with a batch of its own, while rules come in from
elsewhere, packets are counted and calls are made to fail. Whatever they do, the rule set is one
that edits, readings and packets lead to (`Kernel.Shared.reachable_foldl`), and a commit applies all
that its client has staged or nothing of it (`Kernel.Shared.committed`). What the applied edits do
to tables, chains and rules is said by `Edit.effect`, and that they do it by `Ruleset.view_apply`.
-/

namespace FlowTally

/-! ## Batches that are applied -/

namespace Ruleset

/-- Applying the edits of a batch, each after the one before it, leads to a rule set. -/
inductive Applied : Ruleset → Batch → Ruleset → Prop where
  | nil {rs : Ruleset} : Applied rs [] rs
  | cons {rs rs₁ rs₂ : Ruleset} {e : Edit} {b : Batch} (he : rs.apply e = .ok rs₁)
    (hb : Applied rs₁ b rs₂) : Applied rs (e :: b) rs₂

/-- The edits before some edit of a batch can be applied, and that one then fails. -/
def Fails (rs : Ruleset) (b : Batch) (error : TransportError) : Prop :=
  ∃ (done : Batch) (e : Edit) (rest : Batch) (rs₁ : Ruleset),
    b = done ++ e :: rest ∧ rs.Applied done rs₁ ∧ rs₁.apply e = .error error

variable {b : Batch}

/-- A batch is applied, or one of its edits fails. -/
theorem applyAll_cases (b : Batch) : ∀ rs : Ruleset,
    (∃ rs', rs.applyAll b = .ok rs' ∧ rs.Applied b rs') ∨
      ∃ error, rs.applyAll b = .error error ∧ rs.Fails b error := by
  induction b with
  | nil => exact fun rs => .inl ⟨rs, rfl, .nil⟩
  | cons e b ih =>
    intro rs
    cases he : rs.apply e with
    | error error =>
      exact .inr ⟨error, applyAll_cons_of_error he b, [], e, b, rs, rfl, .nil, he⟩
    | ok rs₁ =>
      rw [applyAll_cons he]
      rcases ih rs₁ with ⟨rs', h, ha⟩ | ⟨error, h, done, e', rest, rs₂, rfl, ha, hf⟩
      · exact .inl ⟨rs', h, .cons he ha⟩
      · exact .inr ⟨error, h, e :: done, e', rest, rs₂, rfl, .cons he ha, hf⟩

theorem Applied.reachable {rs rs' : Ruleset} (h : rs.Applied b rs') :
    ∀ {n : Nat}, rs.Reachable n → rs'.Reachable (n + b.taken) := by
  induction h with
  | nil => exact fun h => h
  | @cons rs rs₁ rs₂ e b he _ ih =>
    intro n hr
    rw [Batch.taken, List.map_cons, List.sum_cons, ← Nat.add_assoc]
    exact ih (hr.applied he)

theorem Applied.applyAll_eq {rs rs' : Ruleset} (h : rs.Applied b rs') :
    rs.applyAll b = .ok rs' := by
  induction h with
  | nil => rfl
  | cons he _ ih => rw [applyAll_cons he, ih]

theorem Fails.applyAll_eq {rs : Ruleset} {error : TransportError} (h : rs.Fails b error) :
    rs.applyAll b = .error error := by
  obtain ⟨done, e, rest, rs₁, rfl, ha, hf⟩ := h
  rw [applyAll_append ha.applyAll_eq, applyAll_cons_of_error hf]

end Ruleset

/-! ## Shared kernels -/

namespace Kernel

/-- A lookup leaves the rule set as it was, however it ends. -/
theorem Ends.ruleset_lookup {α β : Type} {k : Kernel} {f : Fault}
    {found : Except TransportError β} {g : β → α} {r : Except TransportError α × Kernel}
    (h : Ends k f (found.map fun b => (g b, k.ruleset)) r) : r.2.ruleset = k.ruleset := by
  cases h with
  | answered _ ha =>
    cases found with
    | error e => cases ha
    | ok b => exact (Prod.mk.inj (Except.ok.inj ha)).2.symm
  | refused _ hs _ => exact hs
  | provoked _ hs _ _ => exact hs

theorem commits_check (k : Kernel) (f : Fault) : (k.check f).2.commits = k.commits := by
  unfold check
  split
  · rfl
  · split <;> rfl

/-- A commit that does not go through changes nothing but which calls fail next. -/
theorem commit_cases (k : Kernel) (b : Batch) :
    (∃ rs, k.commit b = (.ok (), { k with ruleset := rs, commits := k.commits + 1 }) ∧
      k.ruleset.Applied b rs) ∨
    ∃ e k', k.commit b = (.error e, k') ∧ k'.ruleset = k.ruleset ∧ k'.commits = k.commits ∧
      (e.Provoked .commit ∨ k.ruleset.Fails b e) := by
  unfold commit
  rcases k.check_cases .commit with hc | ⟨e, k', hc, hs, he, -⟩
  · rw [hc]
    rcases k.ruleset.applyAll_cases b with ⟨rs, ha, h⟩ | ⟨e, ha, h⟩
    · exact .inl ⟨rs, by simp only [ha], h⟩
    · exact .inr ⟨e, k, by simp only [ha], rfl, rfl, .inr h⟩
  · have hn := k.commits_check .commit
    rw [hc] at hn ⊢
    exact .inr ⟨e, k', rfl, hs, hn, .inl he⟩

/-- A kernel, and what each of the clients that share it has staged. -/
structure Shared where
  kernel : Kernel := {}
  batches : Nat → Batch := fun _ => []

/-- A call of one of the clients, or something that happens to the kernel from elsewhere. -/
inductive Call where
  /-- makes one client a copy of another -/
  | share (client copy : Nat)
  | stage (client : Nat) (edits : List Edit)
  | discard (client : Nat)
  | commit (client : Nat)
  | lookupTable (client : Nat) (family : Family) (name : String)
  | lookupChain (client : Nat) (table : Table) (name : String)
  | drainRules (client : Nat) (table : Table) (chain : Chain)
  | insertRule (rule : Rule)
  | bump (table : Table) (chain label : String) (packets bytes : UInt64)
  | deliver (packet : Packet)
  | disturb (disturbance : Disturbance)

namespace Shared

def client (s : Shared) (i : Nat) : Client := ⟨s.kernel, s.batches i⟩

/-- The state in which a client leaves the others after a call. -/
def leave (s : Shared) (i : Nat) (c : Client) : Shared :=
  ⟨c.kernel, Function.update s.batches i c.batch⟩

def commit (s : Shared) (i : Nat) : Except TransportError Unit × Shared :=
  (Transport.commit (s.client i)).map id (s.leave i)

def after (s : Shared) : Call → Shared
  | .share i j => { s with batches := Function.update s.batches j (s.batches i) }
  | .stage i edits => s.leave i (Transport.stage edits (s.client i))
  | .discard i => s.leave i (Transport.discard (s.client i))
  | .commit i => (s.commit i).2
  | .lookupTable i family name => s.leave i (Transport.lookupTable family name (s.client i)).2
  | .lookupChain i t name => s.leave i (Transport.lookupChain t name (s.client i)).2
  | .drainRules i t chain => s.leave i (Transport.drainRules t chain (s.client i)).2
  | .insertRule r => { s with kernel := (s.kernel.insertRule r).2 }
  | .bump t chain label packets bytes =>
    { s with kernel := (s.kernel.bump t chain label packets bytes).1 }
  | .deliver p => { s with kernel := (s.kernel.deliver p).1 }
  | .disturb x => { s with kernel := s.kernel.disturb x }

/-- The state that calls lead to when nothing was there before. -/
def run (calls : List Call) : Shared := calls.foldl after {}

/-! ## Commits -/

/-- The ways in which a commit of a client can end. All that the client had staged is applied in its
order, or there is a reason why not and nothing has changed; its batch is empty either way, and
those of the others are as they were. -/
inductive Committed (s : Shared) (i : Nat) : Except TransportError Unit × Shared → Prop where
  | applied {s' : Shared} (hb : s'.batches = Function.update s.batches i [])
    (ha : s.kernel.ruleset.Applied (s.batches i) s'.kernel.ruleset)
    (hc : s'.kernel.commits = s.kernel.commits + 1) : Committed s i (.ok (), s')
  | failed {e : TransportError} {s' : Shared} (hb : s'.batches = Function.update s.batches i [])
    (hs : s'.kernel.ruleset = s.kernel.ruleset) (hc : s'.kernel.commits = s.kernel.commits)
    (why : e.Provoked .commit ∨ s.kernel.ruleset.Fails (s.batches i) e) :
    Committed s i (.error e, s')

theorem committed (s : Shared) (i : Nat) : Committed s i (s.commit i) := by
  have hshare : s.commit i = ((s.kernel.commit (s.batches i)).1,
      ⟨(s.kernel.commit (s.batches i)).2, Function.update s.batches i []⟩) := rfl
  rw [hshare]
  rcases s.kernel.commit_cases (s.batches i) with ⟨rs, hc, ha⟩ | ⟨e, k, hc, hs, hn, why⟩
  · rw [hc]
    exact .applied rfl ha rfl
  · rw [hc]
    exact .failed rfl hs hn why

/-- A commit that goes through does what the edits of the batch are to do, one after the other. -/
theorem commit_effect {s : Shared} (hs : s.kernel.ruleset.Sound) (i : Nat) :
    (∀ s', s.commit i = (.ok (), s') →
      (s.batches i).effect s.kernel.ruleset.view = some s'.kernel.ruleset.view) ∧
    ∀ e s', s.commit i = (.error e, s') →
      e.Provoked .commit ∨ (s.batches i).effect s.kernel.ruleset.view = none := by
  have hc := s.committed i
  rw [← Ruleset.view_applyAll hs]
  generalize s.commit i = r at hc ⊢
  cases hc with
  | applied _ ha _ =>
    refine ⟨fun s' h => ?_, fun e s' h => (nomatch h)⟩
    cases h
    rw [ha.applyAll_eq]
    rfl
  | failed _ _ _ why =>
    refine ⟨fun s' h => (nomatch h), fun e s' h => ?_⟩
    cases h
    exact why.imp_right fun hf => by rw [hf.applyAll_eq]; rfl

/-- How many handles a call gives out for good: a batch that is not applied gives out none. -/
def given (s : Shared) : Call → Nat
  | .commit i =>
    match (s.commit i).1 with
    | .ok () => (s.batches i).taken
    | .error _ => 0
  | .insertRule _ => 1
  | _ => 0

/-- How many handles calls give out for good. -/
def givenOut (s : Shared) : List Call → Nat
  | [] => 0
  | c :: calls => s.given c + (s.after c).givenOut calls

/-! ## What calls lead to -/

theorem reachable_after {s : Shared} {n : Nat} (h : s.kernel.ruleset.Reachable n) (c : Call) :
    (s.after c).kernel.ruleset.Reachable (n + s.given c) := by
  cases c with
  | share | stage | discard => exact h
  | commit i =>
    have hc := s.committed i
    simp only [after, given]
    generalize s.commit i = r at hc ⊢
    cases hc with
    | applied _ ha _ => exact ha.reachable h
    | failed _ hs _ _ => exact hs ▸ h
  | lookupTable i family name =>
    have hk := (s.kernel.lookupTable_ends family name).ruleset_lookup
    show (s.kernel.lookupTable family name).2.ruleset.Reachable n
    exact hk ▸ h
  | lookupChain i t name =>
    have hk := (s.kernel.lookupChain_ends t name).ruleset_lookup
    show (s.kernel.lookupChain t name).2.ruleset.Reachable n
    exact hk ▸ h
  | drainRules i t chain =>
    have hd := s.kernel.drainRules_ends t chain
    show (s.kernel.drainRules t chain).2.ruleset.Reachable n
    generalize s.kernel.drainRules t chain = r at hd ⊢
    cases hd with
    | answered _ ha => exact h.drained ha
    | refused _ hs _ => exact hs ▸ h
    | provoked _ hs _ _ => exact hs ▸ h
  | insertRule r =>
    simp only [after, given, insertRule]
    split
    · next rs ha => exact h.applied (e := .addRule r) ha
    · exact h.handleTaken
  | bump t chain label packets bytes => exact h.bumped t chain label packets bytes
  | deliver p => exact h.delivered p
  | disturb x => exact s.kernel.ruleset_disturb x ▸ h

theorem reachable_foldl (calls : List Call) : ∀ {s : Shared} {n : Nat},
    s.kernel.ruleset.Reachable n →
      (calls.foldl after s).kernel.ruleset.Reachable (n + s.givenOut calls) := by
  induction calls with
  | nil => exact fun h => h
  | cons c calls ih =>
    intro s n h
    rw [givenOut, ← Nat.add_assoc]
    exact ih (reachable_after h c)

/-- Whatever clients have done, their rule set is consistent as long as handles do not run out, and
a commit of any of them applies all or nothing of what it has staged. If it applies all, what it
makes of tables, chains and rules is what the edits say, one after the other. -/
theorem run_consistent (calls : List Call) :
    (givenOut {} calls < 2 ^ 64 → (run calls).kernel.ruleset.Consistent) ∧
      ∀ i, Committed (run calls) i ((run calls).commit i) ∧
        (∀ s', (run calls).commit i = (.ok (), s') →
          ((run calls).batches i).effect (run calls).kernel.ruleset.view =
            some s'.kernel.ruleset.view) ∧
        ∀ e s', (run calls).commit i = (.error e, s') → e.Provoked .commit ∨
          ((run calls).batches i).effect (run calls).kernel.ruleset.view = none := by
  have hr := reachable_foldl calls (s := {}) .empty
  refine ⟨fun h => ?_, fun i => ⟨(run calls).committed i, commit_effect hr.sound i⟩⟩
  rw [Nat.zero_add] at hr
  exact hr.consistent h

/-- Two clients build a chain, the second with the batch of the first that it is a copy of; then the
second has a commit fail for no reason of its own, and stages one that fails at its third edit. The
first stages one that empties the table. -/
def twoClients : List Call :=
  let t : Table := ⟨.inet, "flowmon"⟩
  let rule (label : String) : Rule :=
    { table := t, chain := "input", comment := some label, exprs := [.counter 0 0] }
  [.stage 0 [.addTable t, .addChain (.base t "input" .input (-300)), .addRule (rule "ssh")],
    .share 0 1, .commit 0, .stage 1 [.addRule (rule "web")], .commit 1, .insertRule (rule "mine"),
    .bump t "input" "ssh" 3 180, .disturb (.failNext .commit 1), .stage 1 [.flushTable t],
    .commit 1, .stage 1 [.addRule (rule "lost"), .flushTable t, .deleteChain ⟨t, "output", none⟩],
    .stage 0 [.flushTable t, .addRule (rule "dns")]]

theorem run_consistent_twoClients :
    let s := run twoClients
    (s.kernel.ruleset.Consistent ∧ Committed s 1 (s.commit 1)) ∧
      s.kernel.ruleset.handles = [1, 2, 3, 4] ∧
      (s.commit 1).1 = .error (.notFound "chain inet flowmon output") ∧
      (s.commit 0).1 = .ok () ∧ (s.commit 0).2.kernel.ruleset.handles = [5] ∧
      (s.batches 0).effect s.kernel.ruleset.view = some (s.commit 0).2.kernel.ruleset.view := by
  intro s
  obtain ⟨hconsistent, hcommits⟩ := run_consistent twoClients
  have hok : (s.commit 0).1 = .ok () := by decide +kernel
  have heffect := (hcommits 0).2.1 (s.commit 0).2 (Prod.ext hok rfl)
  exact ⟨⟨hconsistent (by decide +kernel), (hcommits 1).1⟩, by decide +kernel, by decide +kernel,
    hok, by decide +kernel, heffect⟩

end Shared

end Kernel

end FlowTally
