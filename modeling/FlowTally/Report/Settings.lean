import FlowTally.Config.Write
import FlowTally.Report
import FlowTally.Toml.Print
/-!
# Reports on configurations

Whether a configuration is valid, and what it says, as a whole or in one section.
-/

namespace FlowTally

open Terminal

/-- Whether a configuration can be used: the number of its counters, or what is wrong. -/
structure ValidityReport where
  source : String
  result : Except String Nat

namespace ValidityReport

def text (color : Bool) (r : ValidityReport) : String :=
  s!"Config Validation: {styled color .bold r.source}\n" ++
    match r.result with
    | .ok counters =>
      let verdict := styled color .boldGreen "VALID"
      s!"  Result: {verdict}\n  Counters: {counters}\n"
    | .error message =>
      let verdict := styled color .boldRed "INVALID"
      s!"  Result: {verdict}\n  Error: {styled color .red message}\n"

def data (r : ValidityReport) : Data :=
  let (valid, counters, errors) := match r.result with
    | .ok counters => (true, counters, [])
    | .error message => (false, 0, [message])
  .table [("source", .text r.source), ("valid", .bool valid), ("counters", .nat counters),
    ("errors", .array (errors.map Data.text))]

instance : Report ValidityReport := ⟨text, data⟩

end ValidityReport

/-! ## Sections -/

/-- A section of a configuration. -/
inductive Section where
  | general
  | layout
  | exporter
  | counters
  deriving DecidableEq, Repr

namespace Section

def all : List Section := [general, layout, exporter, counters]

def name : Section → String
  | general => "general"
  | layout => "nftables"
  | exporter => "exporter"
  | counters => "counters"

def ofName? (s : String) : Option Section := all.find? (·.name = s)

def data (c : Config) : Section → Data
  | general => c.general.toData
  | layout => c.layout.toData
  | exporter => c.exporter.toData
  | counters => c.counters.toData

end Section

/-- A configuration with every default filled in. The tree is always that of the whole. -/
structure SettingsReport where
  source : String
  only : Option Section := none
  config : Config

namespace SettingsReport

def text (color : Bool) (r : SettingsReport) : String :=
  match r.only with
  | some s =>
    let heading := styled color .bold s!"[{s.name}]"
    s!"Configuration {heading} (source: {r.source})\n\n{Toml.print (s.data r.config)}"
  | none =>
    s!"Configuration (source: {styled color .bold r.source})\n\n{Toml.print r.config.toData}"

def data (r : SettingsReport) : Data :=
  .table <| ("source", .text r.source) ::
    Data.optional "section" (fun s => .text s.name) r.only ++ [("config", r.config.toData)]

instance : Report SettingsReport := ⟨text, data⟩

end SettingsReport

end FlowTally
