import FlowTally.Config
import FlowTally.Data
/-!
# Writing configurations

Every field in its order. Of a counter, what it does not ask for is left out, and so are totals of
zero.
-/

namespace FlowTally

/-- An entry that is left out if there is nothing to say. -/
def Data.optional {α : Type} (key : String) (write : α → Data) : Option α → List (String × Data)
  | some a => [(key, write a)]
  | none => []

def TcpFlags.toData (s : TcpFlags) : Data := .array (s.names.map Data.text)

namespace Counter

def toData (c : Counter) : Data :=
  let address (a : Address) : Data := .text a.text
  let port (p : UInt16) : Data := .nat p.toNat
  let total (n : UInt64) : Option UInt64 := if n = 0 then none else some n
  .table <| ("label", .text c.label) ::
    Data.optional "src_addr" address c.source
    ++ Data.optional "dst_addr" address c.destination
    ++ Data.optional "protocol" (fun p => .text p.name) c.protocol
    ++ Data.optional "src_port" port c.sourcePort
    ++ Data.optional "dst_port" port c.destinationPort
    ++ Data.optional "tcp_flags" TcpFlags.toData (if c.flags.isEmpty then none else some c.flags)
    ++ Data.optional "direction" (fun d => .text d.name) c.direction
    ++ Data.optional "packets" (fun n => .nat n.toNat) (total c.packets)
    ++ Data.optional "bytes" (fun n => .nat n.toNat) (total c.bytes)

end Counter

def CounterSet.toData (s : CounterSet) : Data :=
  .table [("input", .array (s.input.map Counter.toData)),
    ("output", .array (s.output.map Counter.toData))]

def General.toData (g : General) : Data :=
  .table [("log_level", .text g.logLevel), ("log_format", .text g.logFormat)]

def Layout.toData (l : Layout) : Data :=
  .table [("family", .text l.family.name), ("table_name", .text l.tableName),
    ("input_chain", .text l.inputChain), ("output_chain", .text l.outputChain),
    ("chain_priority", .int l.priority.toInt)]

def Exporter.toData (e : Exporter) : Data :=
  .table [("interval_secs", .nat e.interval.toNat), ("listen_addr", .text e.address),
    ("port", .nat e.port.toNat), ("endpoint", .text e.endpoint)]

def Config.toData (c : Config) : Data :=
  .table [("general", c.general.toData), ("nftables", c.layout.toData),
    ("exporter", c.exporter.toData), ("counters", c.counters.toData)]

end FlowTally
