import FlowTally.Config.Validate
import FlowTally.Monitor
import FlowTally.Packet
/-!
# The daemon

The daemon installs the counters of its configuration, reads them at regular times while traffic
passes, and removes them when it is stopped, unless it is told to leave them. A configuration that
is not valid is refused before anything is done.
-/

namespace FlowTally

/-- The version that is published with the figures. -/
def version : String := "0.1.0"

inductive DaemonError where
  | invalid (cause : Invalid)
  | setup (cause : ReconcileError)
  | cleanup (cause : ReconcileError)
  deriving DecidableEq, Repr

def DaemonError.message : DaemonError → String
  | invalid cause => s!"config validation failed: config error: {cause.message}"
  | setup cause =>
    let hint := if cause.isPermissionDenied then " (run as root or grant CAP_NET_ADMIN)" else ""
    s!"failed to install counter rules: {cause.message}{hint}"
  | cleanup cause => s!"failed to remove counter rules: {cause.message}"

/-- A daemon whose counters are installed. -/
structure Daemon where
  config : Config
  keepRules : Bool := false
  deriving Repr

/-! ## Time -/

/-- What happens while a daemon runs. -/
inductive Event where
  | packet (packet : Packet)
  | poll
  deriving DecidableEq, Repr

namespace Event

/-- The packets from one time on, up to another if there is one. -/
def packets (start : Nat) (stop : Option Nat) (traffic : List (Nat × Packet)) : List Event :=
  (traffic.filter fun (t, _) => start ≤ t && stop.all fun s => t < s).map fun (_, p) => packet p

/-- What happens until a daemon is stopped: counters are read after every full period but the one
that ends when it is stopped, and packets come at their times. -/
def timeline (period stop : Nat) (traffic : List (Nat × Packet)) : List Event :=
  let polls := (stop - 1) / period
  (List.range polls).flatMap (fun i =>
    packets (i * period) (some ((i + 1) * period)) traffic ++ [poll])
    ++ packets (polls * period) none traffic

end Event

/-! ## Life of a daemon -/

namespace Daemon

variable {σ : Type} [Transport σ]

/-- Milliseconds between two readings. -/
def period (d : Daemon) : Nat := d.config.exporter.interval.toNat * 1000

/-- Installs the counters of a configuration. -/
def build (c : Config) (keepRules : Bool) (m : Monitor σ) :
    Logged (Except DaemonError Daemon × Monitor σ) := do
  match ← c.validate with
  | .error e => return (.error (.invalid e), m)
  | .ok () =>
    let (r, transport) := (c.layout.setup c.counters).run m.transport
    match r with
    | .error e => return (.error (.setup e), { m with transport })
    | .ok () =>
      let registry := (m.registry.recordInstalled c.counters).recordVersion version
      return (.ok ⟨c, keepRules⟩, ⟨transport, registry⟩)

/-- Reads the counters. A reading that fails is passed over with a warning. -/
def tick (d : Daemon) (m : Monitor σ) : Logged (Monitor σ) := do
  let (r, m) ← m.poll d.config.layout
  match r with
  | .ok _ => return m
  | .error e => do
    Logged.warn (.pollFailed e.message)
    return m

/-- Goes through events, where `deliver` says what a packet does. -/
def serve (d : Daemon) (deliver : Packet → σ → σ) : List Event → Monitor σ → Logged (Monitor σ)
  | [], m => pure m
  | .packet p :: rest, m => d.serve deliver rest { m with transport := deliver p m.transport }
  | .poll :: rest, m => do d.serve deliver rest (← d.tick m)

def shutdown (d : Daemon) (m : Monitor σ) : Except DaemonError Unit × Monitor σ :=
  if d.keepRules then (.ok (), m)
  else
    let (r, transport) := d.config.layout.cleanup.run m.transport
    (r.mapError .cleanup, { m with transport })

/-- Runs a daemon to its end. -/
def run (d : Daemon) (deliver : Packet → σ → σ) (events : List Event) (m : Monitor σ) :
    Logged (Except DaemonError Unit × Monitor σ) := do
  return d.shutdown (← d.serve deliver events m)

end Daemon

end FlowTally
