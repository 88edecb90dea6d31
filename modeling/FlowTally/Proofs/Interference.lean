import FlowTally.Kernel
import FlowTally.Proofs.Editing
/-!
# Calls that are made to fail

A client that is disturbed finds, at each of its calls, that more calls were made to fail or that
permission was withdrawn or given since the last one. Each call ends in one of three ways
(`Disturbed.Ends`): with the answer of the rule set, with its error, or because it was made to fail;
and only an answer can change the rule set. Left alone, the client is the kernel's own
(`Session.run_undisturbed`).
-/

namespace FlowTally

/-- What can be done to a kernel so that calls fail. -/
inductive Disturbance where
  | failNext (fault : Fault) (count : Nat)
  | deny (denied : Bool)

/-- The error of a call that was made to fail. -/
inductive TransportError.Provoked (f : Fault) : TransportError → Prop where
  | denied : Provoked f .permissionDenied
  | injected : Provoked f (.injected f)

namespace Kernel

/-! ## Kernels -/

def disturb (k : Kernel) : Disturbance → Kernel
  | .failNext f count => k.failNext f count
  | .deny denied => { k with denied }

theorem ruleset_disturb (k : Kernel) (x : Disturbance) : (k.disturb x).ruleset = k.ruleset := by
  cases x <;> rfl

theorem ruleset_foldl_disturb (xs : List Disturbance) :
    ∀ k : Kernel, (xs.foldl disturb k).ruleset = k.ruleset := by
  induction xs with
  | nil => intro k; rfl
  | cons x xs ih => intro k; rw [List.foldl_cons, ih, ruleset_disturb]

/-- The next call of a kind goes through. -/
def Ready (k : Kernel) (f : Fault) : Prop := k.denied = false ∧ k.faults f = 0

instance (k : Kernel) (f : Fault) : Decidable (k.Ready f) :=
  inferInstanceAs (Decidable (k.denied = false ∧ k.faults f = 0))

/-- The ways in which a call of a kind can end that the rule set would answer so. -/
inductive Ends {α : Type} (k : Kernel) (f : Fault) (answer : Except TransportError (α × Ruleset)) :
    Except TransportError α × Kernel → Prop where
  | answered {a : α} {k' : Kernel} (hr : ∀ g, k.Ready g → k'.Ready g)
    (h : answer = .ok (a, k'.ruleset)) : Ends k f answer (.ok a, k')
  | refused {e : TransportError} {k' : Kernel} (hr : ∀ g, k.Ready g → k'.Ready g)
    (hs : k'.ruleset = k.ruleset) (h : answer = .error e) : Ends k f answer (.error e, k')
  | provoked {e : TransportError} {k' : Kernel} (hr : ∀ g, k.Ready g → k'.Ready g)
    (hs : k'.ruleset = k.ruleset) (he : e.Provoked f) (h : ¬ k.Ready f) :
    Ends k f answer (.error e, k')

/-- A call that is not let through is made to fail. -/
theorem check_cases (k : Kernel) (f : Fault) : k.check f = (.ok (), k) ∨
    ∃ e k', k.check f = (.error e, k') ∧ k'.ruleset = k.ruleset ∧ e.Provoked f ∧ ¬ k.Ready f ∧
      ∀ g, k.Ready g → k'.Ready g := by
  unfold check
  by_cases hd : k.denied = true
  · exact .inr ⟨_, k, by rw [if_pos hd], rfl, .denied, fun h => by simp [h.1] at hd, fun _ h => h⟩
  · rw [if_neg hd]
    by_cases hf : k.faults f = 0
    · exact .inl (by rw [if_pos hf])
    · refine .inr ⟨_, { k with faults := fun g => if g = f then k.faults g - 1 else k.faults g },
        by rw [if_neg hf], rfl, .injected, fun h => hf h.2, ?_⟩
      rintro g ⟨h1, h2⟩
      exact ⟨h1, by simp [h2]⟩

section Calls
variable (k : Kernel)

/-- A call that is checked first is made to fail, or ends as it does when the check passes. -/
theorem ends_of_check {α : Type} {f : Fault} {answer : Except TransportError (α × Ruleset)}
    {r : Except TransportError α × Kernel} (hok : k.check f = (.ok (), k) → Ends k f answer r)
    (herr : ∀ e k', k.check f = (.error e, k') → r = (.error e, k')) : Ends k f answer r := by
  rcases k.check_cases f with h | ⟨e, k', h, hs, he, hn, hr⟩
  · exact hok h
  · rw [herr e k' h]
    exact .provoked hr hs he hn

theorem lookupTable_ends (family : Family) (name : String) : Ends k .lookupTable
    ((k.ruleset.findTable ⟨family, name⟩).map fun t => (t.table, k.ruleset))
    (k.lookupTable family name) := by
  refine k.ends_of_check (fun h => ?_) fun e k' h => by rw [lookupTable, h]
  simp only [lookupTable, h]
  cases k.ruleset.findTable ⟨family, name⟩ with
  | ok t => exact .answered (fun _ h => h) rfl
  | error e => exact .refused (fun _ h => h) rfl rfl

theorem lookupChain_ends (t : Table) (name : String) : Ends k .lookupChain
    ((k.ruleset.findChain t name).map fun c => (c.chain, k.ruleset)) (k.lookupChain t name) := by
  refine k.ends_of_check (fun h => ?_) fun e k' h => by rw [lookupChain, h]
  simp only [lookupChain, h]
  cases k.ruleset.findChain t name with
  | ok c => exact .answered (fun _ h => h) rfl
  | error e => exact .refused (fun _ h => h) rfl rfl

theorem drainRules_ends (t : Table) (c : Chain) :
    Ends k .drainRules (k.ruleset.drain t c.name) (k.drainRules t c) := by
  refine k.ends_of_check (fun h => ?_) fun e k' h => by rw [drainRules, h]
  simp only [drainRules, h]
  cases k.ruleset.drain t c.name with
  | ok x => exact .answered (fun _ h => h) rfl
  | error e => exact .refused (fun _ h => h) rfl rfl

theorem commit_ends (b : Batch) :
    Ends k .commit ((k.ruleset.applyAll b).map fun rs => ((), rs)) (k.commit b) := by
  refine k.ends_of_check (fun h => ?_) fun e k' h => by rw [commit, h]
  simp only [commit, h]
  cases k.ruleset.applyAll b with
  | ok rs => exact .answered (fun _ h => h) rfl
  | error e => exact .refused (fun _ h => h) rfl rfl

end Calls

/-! ## Disturbed clients -/

/-- A client, and what happens to the kernel before each of its next calls. -/
structure Disturbed where
  client : Client
  ahead : List (List Disturbance) := []

namespace Disturbed

def ruleset (s : Disturbed) : Ruleset := s.client.kernel.ruleset

/-- The next call of a kind goes through, and nothing is going to happen to the kernel. -/
def Ready (s : Disturbed) (f : Fault) : Prop := s.ahead = [] ∧ s.client.kernel.Ready f

/-- The client after what was to happen before its next call. -/
def brace (s : Disturbed) : Disturbed where
  client := { s.client with kernel := (s.ahead.headD []).foldl disturb s.client.kernel }
  ahead := s.ahead.tail

def call {α : Type} (f : Client → α × Client) (s : Disturbed) : α × Disturbed :=
  let (a, c) := f s.brace.client
  (a, { s.brace with client := c })

instance : Transport Disturbed where
  lookupTable family name := call (Transport.lookupTable family name)
  lookupChain t name := call (Transport.lookupChain t name)
  drainRules t c := call (Transport.drainRules t c)
  batch s := s.client.batch
  withBatch b s := { s with client := Transport.withBatch b s.client }
  commit := call Transport.commit

/-- The ways in which a call of a kind can end that the rule set would answer so. -/
inductive Ends {α : Type} (s : Disturbed) (f : Fault)
    (answer : Except TransportError (α × Ruleset)) (b : Batch) :
    Except TransportError α × Disturbed → Prop where
  | answered {a : α} {s' : Disturbed} (hb : s'.client.batch = b)
    (hr : ∀ g, s.Ready g → s'.Ready g) (h : answer = .ok (a, s'.ruleset)) :
    Ends s f answer b (.ok a, s')
  | refused {e : TransportError} {s' : Disturbed} (hb : s'.client.batch = b)
    (hr : ∀ g, s.Ready g → s'.Ready g) (hs : s'.ruleset = s.ruleset) (h : answer = .error e) :
    Ends s f answer b (.error e, s')
  | provoked {e : TransportError} {s' : Disturbed} (hb : s'.client.batch = b)
    (hr : ∀ g, s.Ready g → s'.Ready g) (hs : s'.ruleset = s.ruleset) (he : e.Provoked f)
    (h : ¬ s.Ready f) : Ends s f answer b (.error e, s')

section Calls
variable (s : Disturbed)

theorem brace_of_nil {s : Disturbed} (h : s.ahead = []) : s.brace = s := by
  cases s
  subst h
  rfl

theorem ready_brace {f : Fault} (h : s.Ready f) : s.brace.Ready f := by
  rwa [brace_of_nil h.1]

theorem ruleset_brace : s.brace.ruleset = s.ruleset := ruleset_foldl_disturb _ _

/-- What is before a call changes neither what the call is answered nor what it leaves staged. -/
theorem ends_call {α : Type} {g : Client → Except TransportError α × Client} {f : Fault}
    {b : Batch} (answer : Ruleset → Except TransportError (α × Ruleset))
    (h : ∀ k, Kernel.Ends k f (answer k.ruleset) ((g ⟨k, s.client.batch⟩).map id Client.kernel))
    (hb : ∀ k, (g ⟨k, s.client.batch⟩).2.batch = b) :
    Ends s f (answer s.ruleset) b (call g s) := by
  -- What happens before the call touches neither the rule set nor the batch.
  have hk := h s.brace.client.kernel
  have hb := hb s.brace.client.kernel
  have ha : answer s.brace.client.kernel.ruleset = answer s.ruleset := by
    rw [← s.ruleset_brace]
    rfl
  unfold call
  change Kernel.Ends _ _ _ ((g s.brace.client).map id Client.kernel) at hk
  change (g s.brace.client).2.batch = b at hb
  generalize g s.brace.client = r at hk hb ⊢
  obtain ⟨r, c⟩ := r
  change Kernel.Ends _ _ _ (r, c.kernel) at hk
  rw [ha] at hk
  have hready : (∀ g, s.brace.client.kernel.Ready g → c.kernel.Ready g) → ∀ g, s.Ready g →
      (⟨c, s.brace.ahead⟩ : Disturbed).Ready g := fun hr g hg =>
    ⟨(s.ready_brace hg).1, hr g (s.ready_brace hg).2⟩
  cases hk with
  | answered hr h => exact .answered hb (hready hr) h
  | refused hr hs h => exact .refused hb (hready hr) (hs.trans s.ruleset_brace) h
  | provoked hr hs he h =>
    exact .provoked hb (hready hr) (hs.trans s.ruleset_brace) he fun hg => h (s.ready_brace hg).2

theorem lookupTable_ends (family : Family) (name : String) : Ends s .lookupTable
    ((s.ruleset.findTable ⟨family, name⟩).map fun t => (t.table, s.ruleset)) s.client.batch
    (Transport.lookupTable family name s) :=
  s.ends_call (fun rs => (rs.findTable ⟨family, name⟩).map fun t => (t.table, rs))
    (fun k => k.lookupTable_ends family name) fun _ => rfl

theorem lookupChain_ends (t : Table) (name : String) : Ends s .lookupChain
    ((s.ruleset.findChain t name).map fun c => (c.chain, s.ruleset)) s.client.batch
    (Transport.lookupChain t name s) :=
  s.ends_call (fun rs => (rs.findChain t name).map fun c => (c.chain, rs))
    (fun k => k.lookupChain_ends t name) fun _ => rfl

theorem drainRules_ends (t : Table) (c : Chain) : Ends s .drainRules
    (s.ruleset.drain t c.name) s.client.batch (Transport.drainRules t c s) :=
  s.ends_call (fun rs => rs.drain t c.name) (fun k => k.drainRules_ends t c) fun _ => rfl

theorem commit_ends : Ends s .commit
    ((s.ruleset.applyAll s.client.batch).map fun rs => ((), rs)) [] (Transport.commit s) :=
  s.ends_call (fun rs => (rs.applyAll s.client.batch).map fun rs => ((), rs))
    (fun k => k.commit_ends s.client.batch) fun _ => rfl

end Calls

/-! ## Lookups -/

/-- Nothing has changed for the client, and no call that went through before is going to fail. -/
structure Kept (s s' : Disturbed) : Prop where
  ruleset : s'.ruleset = s.ruleset
  batch : s'.client.batch = s.client.batch
  ready : ∀ f, s.Ready f → s'.Ready f

/-- The ways in which a lookup can end of what is there, or is not. -/
inductive Looks {α : Type} (s : Disturbed) (f : Fault) :
    Option α → Except TransportError α × Disturbed → Prop where
  | found {a : α} {s' : Disturbed} (hk : s.Kept s') : Looks s f (some a) (.ok a, s')
  | missing {what : String} {s' : Disturbed} (hk : s.Kept s') :
    Looks s f none (.error (.notFound what), s')
  | provoked {o : Option α} {e : TransportError} {s' : Disturbed} (hk : s.Kept s')
    (he : e.Provoked f) (h : ¬ s.Ready f) : Looks s f o (.error e, s')

theorem Looks.kept {α : Type} {s : Disturbed} {f : Fault} {o : Option α}
    {r : Except TransportError α × Disturbed} (h : Looks s f o r) : s.Kept r.2 := by
  cases h with
  | found hk => exact hk
  | missing hk => exact hk
  | provoked hk he h => exact hk

section Lookups
variable (s : Disturbed)

theorem Ends.looks {α β : Type} {s : Disturbed} {f : Fault} {found : Except TransportError β}
    {g : β → α} {r : Except TransportError α × Disturbed}
    (h : Ends s f (found.map fun b => (g b, s.ruleset)) s.client.batch r)
    (hm : ∀ e, found = .error e → ∃ what, e = .notFound what) :
    Looks s f (found.toOption.map g) r := by
  cases h with
  | answered hb hr ha =>
    cases found with
    | error e => cases ha
    | ok b =>
      injection ha with ha
      injection ha with ha hs
      subst ha
      exact .found ⟨hs.symm, hb, hr⟩
  | refused hb hr hs ha =>
    cases found with
    | error e =>
      injection ha with ha
      obtain ⟨what, rfl⟩ := hm e rfl
      subst ha
      exact .missing ⟨hs, hb, hr⟩
    | ok b => cases ha
  | provoked hb hr hs he h => exact .provoked ⟨hs, hb, hr⟩ he h

theorem lookupTable_looks (t : Table) : Looks s .lookupTable
    ((s.ruleset.find? t).map TableState.table) (Transport.lookupTable t.family t.name s) := by
  have hl := (s.lookupTable_ends t.family t.name).looks fun e he => ?_
  · rwa [Ruleset.toOption_findTable] at hl
  · exact Ruleset.notFound_of_findTable he

theorem lookupChain_looks (t : Table) (name : String) : Looks s .lookupChain
    ((s.ruleset.findChain? t name).map ChainState.chain) (Transport.lookupChain t name s) := by
  have hl := (s.lookupChain_ends t name).looks fun e he => ?_
  · rwa [Ruleset.toOption_findChain] at hl
  · exact Ruleset.notFound_of_findChain he

end Lookups

end Disturbed

end Kernel

/-! ## Clients that are left alone -/

/-- A client that nothing happens to is the client itself. -/
theorem Session.run_undisturbed {α : Type} (m : Session α) : ∀ c : Kernel.Client,
    m.run (⟨c, []⟩ : Kernel.Disturbed) = ((m.run c).1, ⟨(m.run c).2, []⟩) := by
  induction m with
  | done a => intro c; rfl
  | lookupTable family name next ih => exact fun c => ih _ _
  | lookupChain t name next ih => exact fun c => ih _ _
  | drainRules t c next ih => exact fun c => ih _ _
  | stage edits next ih => exact fun c => ih _
  | discard next ih => exact fun c => ih _
  | commit next ih => exact fun c => ih _ _

end FlowTally
