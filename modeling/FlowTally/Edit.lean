import FlowTally.Rule
/-!
# Edits

A change to the kernel's tables. Edits are staged in a batch, which is then applied as a whole or
not at all.
-/

namespace FlowTally

inductive Edit where
  | addTable (table : Table)
  | addChain (chain : Chain)
  | addRule (rule : Rule)
  /-- deletes the chain's rules -/
  | flushChain (chain : Chain)
  | deleteChain (chain : Chain)
  /-- deletes the rules of all the table's chains -/
  | flushTable (table : Table)
  | deleteTable (table : Table)
  deriving DecidableEq, Repr

/-- Edits in the order in which they were staged. -/
abbrev Batch := List Edit

namespace Edit

/-- The object that the edit is about. -/
def objectText : Edit → String
  | addTable t | flushTable t | deleteTable t => t.text
  | addChain c | flushChain c | deleteChain c => c.text
  | addRule r => r.text

/-- What the edit does, for an error message. -/
def text : Edit → String
  | addTable t => s!"add table {t.text}"
  | addChain c => s!"add chain {c.text}"
  | addRule r =>
    let label := r.comment.getD ""
    s!"add rule {r.table.text} {r.chain} '{label}'"
  | flushChain c => s!"flush chain {c.text}"
  | deleteChain c => s!"delete chain {c.text}"
  | flushTable t => s!"flush table {t.text}"
  | deleteTable t => s!"delete table {t.text}"

end Edit

end FlowTally
