import FlowTally.CommandLine.Grammar
import FlowTally.Config
import FlowTally.Report
/-!
# The client's command line

What the client can be told to do, and the words for it. Three options can be given to every
command: where the configuration is, how much is logged, and how reports are written.
-/

namespace FlowTally

/-- What the client is told to do. -/
inductive Request where
  | validate
  /-- shows the section of a name, or all of them -/
  | «show» (sectionName : Option String)
  | compile (only : Option Direction)
  | counters (only : Option Direction)
  | cleanup
  deriving DecidableEq, Repr

structure Invocation where
  config : String
  logLevel : Option String
  format : OutputFormat
  request : Request
  deriving DecidableEq, Repr

namespace Invocation

open CommandLine

def globals : List Switch :=
  [⟨"config", some 'c', .path⟩, ⟨"log-level", none, .text⟩,
    ⟨"output", none, .oneOf (OutputFormat.all.map OutputFormat.name)⟩, .help]

def direction : Switch := ⟨"direction", none, .oneOf (Direction.all.map Direction.name)⟩

/-- A command with options of its own. -/
def command (name : String) (own : List Switch) (subcommands : List Command) : Command :=
  .mk name (own ++ globals) subcommands

def grammar : Command :=
  command "flowmon" [.version]
    [command "config" []
      [command "validate" [] [], command "show" [⟨"section", none, .text⟩] []],
     command "rules" [] [command "compile" [direction] []],
     command "counters" [direction] [],
     command "cleanup" [] []]

/-- What the commands that were named ask for. -/
def request? (s : Selection) : Option Request :=
  let only := (s.get? "direction").bind Direction.ofName?
  match s.path with
  | ["config", "validate"] => some .validate
  | ["config", "show"] => some (.show (s.get? "section"))
  | ["rules", "compile"] => some (.compile only)
  | ["counters"] => some (.counters only)
  | ["cleanup"] => some .cleanup
  | _ => none

def ofSelection? (s : Selection) : Option Invocation :=
  (request? s).map fun request =>
    { config := (s.get? "config").getD Config.defaultPath
      logLevel := s.get? "log-level"
      format := ((s.get? "output").bind OutputFormat.ofName?).getD .text
      request }

/-- How the client is called. -/
def usage : List String :=
  ["Usage: flowmon [-c FILE] [--log-level LEVEL] [--output text|json] COMMAND",
    "",
    "Commands:",
    "  config validate                  check the configuration",
    "  config show [--section NAME]     show it with every default filled in",
    "  rules compile [--direction DIR]  show the rules of its counters",
    "  counters [--direction DIR]       read the counters, which resets them",
    "  cleanup                          remove the table"]

def parse (words : List String) : Except UsageError Invocation := do
  match ofSelection? (← grammar.parse words) with
  | some i => .ok i
  | none => .error .noSubcommand

end Invocation

end FlowTally
