import FlowTally.Edit
import FlowTally.Packet.Evaluate
import FlowTally.Transport.Error
/-!
# Rule sets

What the kernel keeps: tables with their chains, and chains with their rules, in the order in which
they came. Applying an edit gives the next rule set or says why there is none.
-/

namespace FlowTally

structure ChainState where
  chain : Chain
  rules : List Rule := []
  deriving DecidableEq, Repr

structure TableState where
  table : Table
  chains : List ChainState := []
  deriving DecidableEq, Repr

/-- The tables, and the handle that was given out last. -/
structure Ruleset where
  tables : List TableState := []
  lastHandle : UInt64 := 0
  deriving DecidableEq, Repr

def total (ns : List Nat) : Nat := ns.foldr (· + ·) 0

/-- Changes the first element that has a property. -/
def updateFirst {α ε : Type} (p : α → Bool) (missing : ε) (f : α → Except ε α) :
    List α → Except ε (List α)
  | [] => .error missing
  | a :: rest =>
    if p a then (f a).map (· :: rest)
    else (updateFirst p missing f rest).map (a :: ·)

namespace TableState

def find? (t : TableState) (name : String) : Option ChainState :=
  t.chains.find? (·.chain.name = name)

/-- A chain that is there already keeps its rules. -/
def addChain (t : TableState) (c : Chain) : TableState :=
  match updateFirst (·.chain.name = c.name) () (fun s => .ok { s with chain := c }) t.chains with
  | .ok chains => { t with chains }
  | .error () => { t with chains := t.chains ++ [⟨c, []⟩] }

/-- Only a chain without rules can be deleted. -/
def deleteChain (t : TableState) (c : Chain) : Except TransportError TableState :=
  match t.find? c.name with
  | none => .error (.notFound s!"chain {c.text}")
  | some s =>
    if s.rules.isEmpty then .ok { t with chains := t.chains.eraseP (·.chain.name = c.name) }
    else .error (.ofErrno "delete chain" Errno.busy c.name)

def flush (t : TableState) : TableState :=
  { t with chains := t.chains.map fun s => { s with rules := [] } }

end TableState

namespace Ruleset

/-! ## Looking up -/

def find? (rs : Ruleset) (t : Table) : Option TableState := rs.tables.find? (·.table = t)

def findTable (rs : Ruleset) (t : Table) : Except TransportError TableState :=
  match rs.find? t with
  | some s => .ok s
  | none => .error (.notFound s!"table {t.text}")

def findChain (rs : Ruleset) (t : Table) (name : String) : Except TransportError ChainState := do
  let s ← rs.findTable t
  match s.find? name with
  | some c => .ok c
  | none => .error (.notFound s!"chain {t.text} {name}")

def chains (rs : Ruleset) (t : Table) : List Chain :=
  match rs.find? t with
  | some s => s.chains.map ChainState.chain
  | none => []

def rules (rs : Ruleset) (t : Table) (chain : String) : List Rule :=
  match (rs.find? t).bind (·.find? chain) with
  | some s => s.rules
  | none => []

/-! ## Editing -/

def updateTable (rs : Ruleset) (t : Table) (f : TableState → Except TransportError TableState) :
    Except TransportError Ruleset :=
  (updateFirst (·.table = t) (.notFound s!"table {t.text}") f rs.tables).map fun ts =>
    { rs with tables := ts }

def updateChain (rs : Ruleset) (t : Table) (name : String) (f : ChainState → ChainState) :
    Except TransportError Ruleset :=
  rs.updateTable t fun s =>
    (updateFirst (·.chain.name = name) (.notFound s!"chain {t.text} {name}")
      (fun c => .ok (f c)) s.chains).map fun cs => { s with chains := cs }

/-- The rule set after one more handle has been given out. -/
def takeHandle (rs : Ruleset) : Ruleset := { rs with lastHandle := rs.lastHandle + 1 }

/-- Adds a rule at the end of its chain, under the next handle. -/
def addRule (rs : Ruleset) (r : Rule) : Except TransportError Ruleset :=
  let rs := rs.takeHandle
  rs.updateChain r.table r.chain fun c =>
    { c with rules := c.rules ++ [{ r with handle := some rs.lastHandle }] }

def apply (rs : Ruleset) : Edit → Except TransportError Ruleset
  | .addTable t =>
    if (rs.find? t).isSome then .ok rs else .ok { rs with tables := rs.tables ++ [⟨t, []⟩] }
  | .addChain c => rs.updateTable c.table fun s => .ok (s.addChain c)
  | .addRule r => rs.addRule r
  | .flushChain c => rs.updateChain c.table c.name fun s => { s with rules := [] }
  | .deleteChain c => rs.updateTable c.table fun s => s.deleteChain c
  | .flushTable t => rs.updateTable t fun s => .ok s.flush
  | .deleteTable t =>
    (rs.findTable t).map fun _ => { rs with tables := rs.tables.filter (·.table ≠ t) }

def applyAll (rs : Ruleset) (b : Batch) : Except TransportError Ruleset := b.foldlM apply rs

/-! ## Counting -/

/-- The rules of a chain as they are, and the rule set with their counts set to zero. -/
def drain (rs : Ruleset) (t : Table) (chain : String) :
    Except TransportError (List Rule × Ruleset) := do
  let s ← rs.findChain t chain
  let rs ← rs.updateChain t chain fun c => { c with rules := c.rules.map Rule.reset }
  return (s.rules, rs)

/-- Raises the counts of the rules of a chain that have a label, and says how many there are. -/
def bump (rs : Ruleset) (t : Table) (chain label : String) (packets bytes : UInt64) :
    Ruleset × Nat :=
  let labelled (r : Rule) : Bool := r.comment == some label
  let count := total (((rs.rules t chain).filter labelled).map Rule.counterCount)
  let bumpRule (r : Rule) : Rule := if labelled r then r.bump packets bytes else r
  match rs.updateChain t chain fun c => { c with rules := c.rules.map bumpRule } with
  | .ok rs => (rs, count)
  | .error _ => (rs, 0)

end Ruleset

/-! ## Packets -/

def ChainState.deliver (p : Packet) (s : ChainState) : ChainState × Nat :=
  if (s.chain.hook.map Hook.direction) = some p.direction then
    let results := s.rules.map p.evaluate
    ({ s with rules := results.map Prod.fst }, total (results.map Prod.snd))
  else (s, 0)

def TableState.deliver (p : Packet) (s : TableState) : TableState × Nat :=
  if s.table.family.carries p then
    let results := s.chains.map (ChainState.deliver p)
    ({ s with chains := results.map Prod.fst }, total (results.map Prod.snd))
  else (s, 0)

/-- Runs a packet through the chains on its hook in the tables that see it, and says how many
counters counted it. -/
def Ruleset.deliver (p : Packet) (rs : Ruleset) : Ruleset × Nat :=
  let results := rs.tables.map (TableState.deliver p)
  ({ rs with tables := results.map Prod.fst }, total (results.map Prod.snd))

end FlowTally
