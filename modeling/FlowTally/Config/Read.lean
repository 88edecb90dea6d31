import FlowTally.Config
import FlowTally.Data
import FlowTally.Text.Number
/-!
# Reading configurations

A record is a table, or a list of its fields in order. A field that is not there has its default
value, and so has every record. Counters may hold no other keys than their own; elsewhere such keys
are passed over if what they have can be read, and a date counts as a table that has only such a
key. What goes on behind the last field of a record is not looked at.
-/

namespace FlowTally.Config

/-- How a text format writes records and names. -/
structure Dialect where
  /-- whether a list may go on behind the last field of the record it stands for -/
  allowsExtra : Bool
  /-- what stands behind a name that is written as the only key of a table -/
  isBare : Data → Bool

namespace Dialect

def toml : Dialect where
  allowsExtra := true
  isBare
    | .table [] | .array [] => true
    | _ => false

def json : Dialect where
  allowsExtra := false
  isBare := Data.isNull

end Dialect

/-! ## Values -/

def readText : Data → Option String
  | .text s => some s
  | _ => none

def readInt : Data → Option Int
  | .int n => some n
  | _ => none

def readList {α : Type} (read : Data → Option α) : Data → Option (List α)
  | .array xs => xs.mapM read
  | _ => none

/-- A value that may be left open. -/
def readOptional {α : Type} (read : Data → Option α) (d : Data) : Option (Option α) :=
  if d.isNull then some none else (read d).map some

def readName {α : Type} (dl : Dialect) (ofName? : String → Option α) : Data → Option α
  | .text s => ofName? s
  | .table [(s, d)] => if dl.isBare d then ofName? s else none
  | _ => none

def readFlags (d : Data) : Option TcpFlags :=
  (readList (fun f => (readText f).bind fun s => (TcpFlag.ofName s).toOption) d).map TcpFlags.ofList

/-! ## Records -/

/-- The fields of a record by name. -/
abbrev Fields := String → Option Data

def fields? (dl : Dialect) (closed : Bool) (names : List String) : Data → Option Fields
  | .table entries =>
    if (entries.filter fun (k, _) => k ∉ names).all fun (_, d) => !closed && d.isReadable then
      some fun k => entries.lookup k
    else none
  | .array items =>
    if !dl.allowsExtra && names.length < items.length then none
    else some fun k => (names.zip items).lookup k
  | .datetime _ => if closed then none else some fun _ => none
  | _ => none

def Fields.get {α : Type} (fs : Fields) (name : String) (default : α) (read : Data → Option α) :
    Option α :=
  match fs name with
  | none => some default
  | some d => read d

def generalFields : List String := ["log_level", "log_format"]

def readGeneral (dl : Dialect) (d : Data) : Option General := do
  let fs ← fields? dl false generalFields d
  let default : General := {}
  return {
    logLevel := ← fs.get "log_level" default.logLevel readText
    logFormat := ← fs.get "log_format" default.logFormat readText }

def layoutFields : List String :=
  ["family", "table_name", "input_chain", "output_chain", "chain_priority"]

def readLayout (dl : Dialect) (d : Data) : Option Layout := do
  let fs ← fields? dl false layoutFields d
  let default : Layout := {}
  return {
    family := ← fs.get "family" default.family (readName dl Family.ofName?)
    tableName := ← fs.get "table_name" default.tableName readText
    inputChain := ← fs.get "input_chain" default.inputChain readText
    outputChain := ← fs.get "output_chain" default.outputChain readText
    priority :=
      ← fs.get "chain_priority" default.priority fun d => (readInt d).bind Text.int32? }

def exporterFields : List String := ["interval_secs", "listen_addr", "port", "endpoint"]

def readExporter (dl : Dialect) (d : Data) : Option Exporter := do
  let fs ← fields? dl false exporterFields d
  let default : Exporter := {}
  return {
    interval := ← fs.get "interval_secs" default.interval fun d => (readInt d).bind Text.uint64?
    address := ← fs.get "listen_addr" default.address readText
    port := ← fs.get "port" default.port fun d => (readInt d).bind Text.uint16?
    endpoint := ← fs.get "endpoint" default.endpoint readText }

def counterFields : List String :=
  ["label", "src_addr", "dst_addr", "protocol", "src_port", "dst_port", "tcp_flags"]

/-- A counter as it is declared: the direction and the totals are not part of it. -/
def readCounter (dl : Dialect) (d : Data) : Option Counter := do
  let fs ← fields? dl true counterFields d
  let address (d : Data) : Option Address := (readText d).bind Address.parse?
  let port (d : Data) : Option UInt16 := (readInt d).bind Text.uint16?
  return {
    label := ← fs.get "label" "" readText
    source := ← fs.get "src_addr" none (readOptional address)
    destination := ← fs.get "dst_addr" none (readOptional address)
    protocol := ← fs.get "protocol" none (readOptional (readName dl Protocol.ofName?))
    sourcePort := ← fs.get "src_port" none (readOptional port)
    destinationPort := ← fs.get "dst_port" none (readOptional port)
    flags := ← fs.get "tcp_flags" TcpFlags.empty readFlags }

def counterSetFields : List String := ["input", "output"]

def readCounterSet (dl : Dialect) (d : Data) : Option CounterSet := do
  let fs ← fields? dl true counterSetFields d
  return {
    input := ← fs.get "input" [] (readList (readCounter dl))
    output := ← fs.get "output" [] (readList (readCounter dl)) }

def sectionNames : List String := ["general", "nftables", "exporter", "counters"]

/-- Reads a configuration, or gives none if the tree is not that of one. -/
def ofData? (dl : Dialect) (d : Data) : Option Config := do
  let fs ← fields? dl false sectionNames d
  return {
    general := ← fs.get "general" {} (readGeneral dl)
    layout := ← fs.get "nftables" {} (readLayout dl)
    exporter := ← fs.get "exporter" {} (readExporter dl)
    counters := ← fs.get "counters" {} (readCounterSet dl) }

end FlowTally.Config
