import FlowTally.Ruleset
import FlowTally.Session
/-!
# A kernel in memory

A rule set that any number of clients share, each with a batch of its own. Calls can be made to
fail: each kind a number of times, or all of them for want of permission. A commit that fails leaves
the rule set as it was.
-/

namespace FlowTally

structure Kernel where
  ruleset : Ruleset := {}
  /-- how many of the next calls of a kind fail -/
  faults : Fault → Nat := fun _ => 0
  denied : Bool := false
  commits : Nat := 0

namespace Kernel

/-- Makes the next `count` calls of a kind fail, on top of those that fail already. -/
def failNext (k : Kernel) (f : Fault) (count : Nat) : Kernel :=
  { k with faults := fun g => if g = f then k.faults g + count else k.faults g }

/-- Whether a call of a kind goes through. A failure for want of permission uses up no other. -/
def check (k : Kernel) (f : Fault) : Except TransportError Unit × Kernel :=
  if k.denied then (.error .permissionDenied, k)
  else if k.faults f = 0 then (.ok (), k)
  else
    (.error (.injected f),
      { k with faults := fun g => if g = f then k.faults g - 1 else k.faults g })

def lookupTable (k : Kernel) (family : Family) (name : String) :
    Except TransportError Table × Kernel :=
  match k.check .lookupTable with
  | (.error e, k) => (.error e, k)
  | (.ok (), k) => ((k.ruleset.findTable ⟨family, name⟩).map TableState.table, k)

def lookupChain (k : Kernel) (t : Table) (name : String) : Except TransportError Chain × Kernel :=
  match k.check .lookupChain with
  | (.error e, k) => (.error e, k)
  | (.ok (), k) => ((k.ruleset.findChain t name).map ChainState.chain, k)

def drainRules (k : Kernel) (t : Table) (chain : Chain) :
    Except TransportError (List Rule) × Kernel :=
  match k.check .drainRules with
  | (.error e, k) => (.error e, k)
  | (.ok (), k) =>
    match k.ruleset.drain t chain.name with
    | .error e => (.error e, k)
    | .ok (rules, rs) => (.ok rules, { k with ruleset := rs })

def commit (k : Kernel) (b : Batch) : Except TransportError Unit × Kernel :=
  match k.check .commit with
  | (.error e, k) => (.error e, k)
  | (.ok (), k) =>
    match k.ruleset.applyAll b with
    | .error e => (.error e, k)
    | .ok rs => (.ok (), { k with ruleset := rs, commits := k.commits + 1 })

/-- Adds a rule outside any batch, as another program would. Its handle is used up even if there is
no such chain. -/
def insertRule (k : Kernel) (r : Rule) : Except TransportError Unit × Kernel :=
  match k.ruleset.addRule r with
  | .ok rs => (.ok (), { k with ruleset := rs })
  | .error e => (.error e, { k with ruleset := k.ruleset.takeHandle })

def bump (k : Kernel) (t : Table) (chain label : String) (packets bytes : UInt64) :
    Kernel × Nat :=
  let (rs, count) := k.ruleset.bump t chain label packets bytes
  ({ k with ruleset := rs }, count)

def deliver (k : Kernel) (p : Packet) : Kernel × Nat :=
  let (rs, hits) := k.ruleset.deliver p
  ({ k with ruleset := rs }, hits)

/-- A client of the kernel: the state they share, and its own batch. -/
structure Client where
  kernel : Kernel
  batch : Batch := []

instance : Transport Client where
  lookupTable family name c :=
    let (r, k) := c.kernel.lookupTable family name
    (r, { c with kernel := k })
  lookupChain t name c :=
    let (r, k) := c.kernel.lookupChain t name
    (r, { c with kernel := k })
  drainRules t chain c :=
    let (r, k) := c.kernel.drainRules t chain
    (r, { c with kernel := k })
  batch c := c.batch
  withBatch b c := { c with batch := b }
  commit c :=
    let (r, k) := c.kernel.commit c.batch
    (r, ⟨k, []⟩)

/-- Runs a session of a client that has staged nothing. -/
def run {α : Type} (k : Kernel) (m : Session α) : α × Kernel :=
  let (a, c) := m.run (⟨k, []⟩ : Client)
  (a, c.kernel)

end Kernel

end FlowTally
