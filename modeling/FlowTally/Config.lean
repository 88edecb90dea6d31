import FlowTally.Counter
import FlowTally.Layout
/-!
# Configurations

All settings: logging, where the rules live, how totals are published, and the counters.
-/

namespace FlowTally

structure General where
  logLevel : String := "info"
  logFormat : String := "json"
  deriving DecidableEq, Repr, Inhabited

/-- How often counters are read, and the address at which totals are published. -/
structure Exporter where
  /-- seconds between two readings -/
  interval : UInt64 := 10
  address : String := "127.0.0.1"
  port : UInt16 := 9617
  endpoint : String := "/metrics"
  deriving DecidableEq, Repr, Inhabited

structure Config where
  general : General := {}
  layout : Layout := {}
  exporter : Exporter := {}
  counters : CounterSet := {}
  deriving DecidableEq, Repr, Inhabited

/-- Where the configuration is looked for. -/
def Config.defaultPath : String := "/etc/flowmon/flowmon.toml"

end FlowTally
