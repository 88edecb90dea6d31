import FlowTally.Bytes
import FlowTally.Config
import FlowTally.Text.Number
import FlowTally.Warning
/-!
# Environment variables

Every setting but the counters can be given by a variable as well, which then wins over the file. A
variable that is not valid Unicode is passed over, and one that should be a number or a family but
is not is passed over with a warning.
-/

namespace FlowTally

/-- The variables with their raw values. -/
abbrev Environment := List (String × Bytes)

namespace Environment

/-- The variables that are looked at. -/
def names : List String :=
  ["FLOWMON_GENERAL_LOG_LEVEL", "FLOWMON_GENERAL_LOG_FORMAT", "FLOWMON_NFTABLES_FAMILY",
    "FLOWMON_NFTABLES_TABLE_NAME", "FLOWMON_NFTABLES_INPUT_CHAIN", "FLOWMON_NFTABLES_OUTPUT_CHAIN",
    "FLOWMON_NFTABLES_CHAIN_PRIORITY", "FLOWMON_EXPORTER_INTERVAL_SECS",
    "FLOWMON_EXPORTER_LISTEN_ADDR", "FLOWMON_EXPORTER_PORT", "FLOWMON_EXPORTER_ENDPOINT"]

def get? (env : Environment) (name : String) : Option String :=
  (env.lookup name).bind Bytes.toString?

def overrideText (env : Environment) (name : String) (current : String) : String :=
  (env.get? name).getD current

def override {α : Type} (env : Environment) (name : String) (parse : String → Option α)
    (current : α) : Logged α :=
  match env.get? name with
  | none => pure current
  | some s =>
    match parse s with
    | some a => pure a
    | none => do
      Logged.warn (.environmentIgnored name s)
      pure current

def general (env : Environment) (g : General) : General where
  logLevel := env.overrideText "FLOWMON_GENERAL_LOG_LEVEL" g.logLevel
  logFormat := env.overrideText "FLOWMON_GENERAL_LOG_FORMAT" g.logFormat

def layout (env : Environment) (l : Layout) : Logged Layout := do
  let family ← env.override "FLOWMON_NFTABLES_FAMILY" Family.ofName? l.family
  let priority ← env.override "FLOWMON_NFTABLES_CHAIN_PRIORITY"
    (fun s => (Text.int? s).bind Text.int32?) l.priority
  return {
    family, priority
    tableName := env.overrideText "FLOWMON_NFTABLES_TABLE_NAME" l.tableName
    inputChain := env.overrideText "FLOWMON_NFTABLES_INPUT_CHAIN" l.inputChain
    outputChain := env.overrideText "FLOWMON_NFTABLES_OUTPUT_CHAIN" l.outputChain }

def exporter (env : Environment) (e : Exporter) : Logged Exporter := do
  let interval ← env.override "FLOWMON_EXPORTER_INTERVAL_SECS"
    (fun s => (Text.nat? s).bind fun n => Text.uint64? n) e.interval
  let port ← env.override "FLOWMON_EXPORTER_PORT"
    (fun s => (Text.nat? s).bind fun n => Text.uint16? n) e.port
  return {
    interval, port
    address := env.overrideText "FLOWMON_EXPORTER_LISTEN_ADDR" e.address
    endpoint := env.overrideText "FLOWMON_EXPORTER_ENDPOINT" e.endpoint }

end Environment

/-- The configuration with the settings that variables give. -/
def Config.overriddenBy (c : Config) (env : Environment) : Logged Config := do
  let layout ← env.layout c.layout
  let exporter ← env.exporter c.exporter
  return { c with general := env.general c.general, layout, exporter }

end FlowTally
