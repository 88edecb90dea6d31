import FlowTally.Edit
import FlowTally.Transport.Error
/-!
# Transports

A transport looks up tables and chains, reads and clears counters, and applies a batch of staged
edits as a whole or not at all.
-/

namespace FlowTally

class Transport (σ : Type) where
  lookupTable : Family → String → σ → Except TransportError Table × σ
  lookupChain : Table → String → σ → Except TransportError Chain × σ
  /-- reads the rules of a chain and sets their counts to zero -/
  drainRules : Table → Chain → σ → Except TransportError (List Rule) × σ
  batch : σ → Batch
  withBatch : Batch → σ → σ
  commit : σ → Except TransportError Unit × σ

namespace Transport

variable {σ : Type} [Transport σ]

def stage (edits : List Edit) (s : σ) : σ := withBatch (batch s ++ edits) s

def discard (s : σ) : σ := withBatch [] s

end Transport

end FlowTally
