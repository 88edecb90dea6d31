import FlowTally.Config
import FlowTally.Warning
import FlowTally.Wire.Error
/-!
# Checking configurations

Every setting is held against what it may be, in a fixed order, and the first that does not fit is
named. Counters are looked at last, input before output and each list from its start. A counter that
asks for flags that no rule looks at is accepted with a warning.
-/

namespace FlowTally

/-- Which end of a connection. -/
inductive End where
  | source
  | destination
  deriving DecidableEq, Repr

def End.name : End → String
  | source => "src"
  | destination => "dst"

/-! ## Counters -/

/-- What may be wrong with a counter. -/
inductive CounterFault where
  | emptyLabel
  | badLabel
  | foreignAddress (side : End) (address : Address) (family : Family)
  | portsNotAllowed (side : End)
  | zeroPort (side : End)
  | flagsNotAllowed
  | duplicateLabel (label : String) (direction : Direction)
  deriving DecidableEq, Repr

namespace CounterFault

def field : CounterFault → String
  | emptyLabel | badLabel | duplicateLabel .. => "label"
  | foreignAddress side .. => s!"{side.name}_addr"
  | portsNotAllowed side | zeroPort side => s!"{side.name}_port"
  | flagsNotAllowed => "tcp_flags"

def reason : CounterFault → String
  | emptyLabel => "must not be empty"
  | badLabel => s!"must be at most {maxCommentBytes} bytes without NUL characters"
  | foreignAddress _ a f => s!"{a.text} cannot appear in a '{f.name}' table"
  | portsNotAllowed _ => "ports require protocol tcp or udp"
  | zeroPort _ => "must be between 1 and 65535"
  | flagsNotAllowed => "tcp_flags require protocol tcp"
  | duplicateLabel label d => s!"duplicate label '{label}' in {d.name} counters"

end CounterFault

namespace Counter

/-- A label becomes a comment, so it has to fit one. -/
def labelFault (c : Counter) : Option CounterFault :=
  if c.label.isEmpty then some .emptyLabel
  else if maxCommentBytes < c.label.utf8ByteSize ∨ '\x00' ∈ c.label.toList then some .badLabel
  else none

def addressFault (family : Family) (side : End) (address : Option Address) :
    Option CounterFault :=
  match address with
  | none => none
  | some a => if family.accepts a then none else some (.foreignAddress side a family)

def portFault (c : Counter) (side : End) (port : Option UInt16) : Option CounterFault :=
  match port with
  | none => none
  | some p =>
    if !c.hasPorts then some (.portsNotAllowed side)
    else if p = 0 then some (.zeroPort side)
    else none

def flagsFault (c : Counter) : Option CounterFault :=
  if !c.flags.isEmpty && !c.isTcp then some .flagsNotAllowed else none

/-- The first thing that is wrong with a counter by itself. -/
def fault (family : Family) (c : Counter) : Option CounterFault :=
  [c.labelFault, addressFault family .source c.source,
    addressFault family .destination c.destination, c.portFault .source c.sourcePort,
    c.portFault .destination c.destinationPort, c.flagsFault].findSome? id

/-- The warning that a counter without faults deserves. -/
def warning (c : Counter) : Option Warning :=
  if c.flags.unmatchable.isEmpty then none
  else some (.neverMatches c.label c.flags.unmatchable)

end Counter

/-! ## Settings -/

def logLevels : List String := ["trace", "debug", "info", "warn", "error"]

def logFormats : List String := ["json", "pretty"]

/-- The setting that does not fit. -/
inductive Invalid where
  | logLevel
  | logFormat
  | emptyTableName
  | emptyChainName (direction : Direction)
  | sameChain
  | zeroInterval
  | address (value : String)
  | endpoint (value : String)
  | counter (direction : Direction) (index : Nat) (fault : CounterFault)
  deriving DecidableEq, Repr

namespace Invalid

def field : Invalid → String
  | logLevel => "general.log_level"
  | logFormat => "general.log_format"
  | emptyTableName => "nftables.table_name"
  | emptyChainName d => s!"nftables.{d.name}_chain"
  | sameChain => "nftables.output_chain"
  | zeroInterval => "exporter.interval_secs"
  | address _ => "exporter.listen_addr"
  | endpoint _ => "exporter.endpoint"
  | counter d index fault => s!"counters.{d.name}[{index}].{fault.field}"

def reason : Invalid → String
  | logLevel => "must be one of: " ++ ", ".intercalate logLevels
  | logFormat => "must be one of: " ++ ", ".intercalate logFormats
  | emptyTableName | emptyChainName _ => "must not be empty"
  | sameChain => "must differ from nftables.input_chain"
  | zeroInterval => "must be greater than 0"
  | address value => s!"'{value}' is not an IP address"
  | endpoint value => s!"'{value}' is not supported, only '/metrics'"
  | counter _ _ fault => fault.reason

def message (e : Invalid) : String := s!"invalid config value for '{e.field}': {e.reason}"

end Invalid

namespace Config

/-- The first setting that does not fit, the counters aside. -/
def settingFault (c : Config) : Option Invalid :=
  let check (ok : Bool) (e : Invalid) : Option Invalid := if ok then none else some e
  [check (logLevels.contains c.general.logLevel) .logLevel,
    check (logFormats.contains c.general.logFormat) .logFormat,
    check (!c.layout.tableName.isEmpty) .emptyTableName,
    check (!c.layout.inputChain.isEmpty) (.emptyChainName .input),
    check (!c.layout.outputChain.isEmpty) (.emptyChainName .output),
    check (c.layout.inputChain ≠ c.layout.outputChain) .sameChain,
    check (c.exporter.interval ≠ 0) .zeroInterval,
    check (Address.parse? c.exporter.address).isSome (.address c.exporter.address),
    check (c.exporter.endpoint == "/metrics") (.endpoint c.exporter.endpoint)].findSome? id

/-- Looks at counters from an index on, after counters with the labels `seen`. A label that comes
again is found only if nothing else is wrong with the counter. -/
def checkCounters (family : Family) (d : Direction) (seen : List String) (index : Nat) :
    List Counter → Logged (Except Invalid Unit)
  | [] => pure (.ok ())
  | c :: rest =>
    match c.fault family with
    | some e => pure (.error (.counter d index e))
    | none => do
      c.warning.forM Logged.warn
      if c.label ∈ seen then pure (.error (.counter d index (.duplicateLabel c.label d)))
      else checkCounters family d (c.label :: seen) (index + 1) rest

/-- Accepts a configuration or names the first setting that does not fit. -/
def validate (c : Config) : Logged (Except Invalid Unit) :=
  match c.settingFault with
  | some e => pure (.error e)
  | none => do
    match ← checkCounters c.layout.family .input [] 0 c.counters.input with
    | .error e => pure (.error e)
    | .ok () => checkCounters c.layout.family .output [] 0 c.counters.output

end Config

end FlowTally
