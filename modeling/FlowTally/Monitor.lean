import FlowTally.Metrics.Registry
import FlowTally.Reconcile
/-!
# Monitoring

A monitor reads counters over a transport and records what it read. A reading sets the kernel's
counts to zero, so what it gave has to be recorded, and a reading that fails gives nothing.
-/

namespace FlowTally

structure Monitor (σ : Type) where
  transport : σ
  registry : Registry := {}

/-- A reading that failed. -/
structure PollError where
  cause : ReconcileError
  deriving DecidableEq, Repr

def PollError.message (e : PollError) : String :=
  ": ".intercalate ("failed to list counters" :: e.cause.chain)

namespace Monitor

variable {σ : Type} [Transport σ]

/-- Reads the counters of a layout once. -/
def poll (l : Layout) (m : Monitor σ) : Logged (Except PollError CounterSet × Monitor σ) := do
  let (r, transport) ← l.collect m.transport
  match r with
  | .ok set =>
    return (.ok set, ⟨transport, (m.registry.add ⟨.pollsTotal, []⟩ 1).recordReading set⟩)
  | .error e => return (.error ⟨e⟩, ⟨transport, m.registry.add ⟨.pollFailuresTotal, []⟩ 1⟩)

end Monitor

end FlowTally
