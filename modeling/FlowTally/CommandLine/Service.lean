import FlowTally.CommandLine.Grammar
import FlowTally.Config
/-!
# The daemon's command line

The daemon has no commands, only options.
-/

namespace FlowTally

structure ServiceOptions where
  config : String := Config.defaultPath
  logLevel : Option String := none
  logFormat : Option String := none
  /-- only looks at the configuration -/
  validate : Bool := false
  /-- leaves the rules where they are at the end -/
  keepRules : Bool := false
  deriving DecidableEq, Repr

namespace ServiceOptions

open CommandLine

def grammar : Command :=
  .mk "flowmon-daemon"
    [⟨"config", some 'c', .path⟩, ⟨"log-level", none, .text⟩, ⟨"log-format", none, .text⟩,
      ⟨"validate", none, .flag⟩, ⟨"keep-rules", none, .flag⟩, .help, .version] []

def ofSelection (s : Selection) : ServiceOptions where
  config := (s.get? "config").getD Config.defaultPath
  logLevel := s.get? "log-level"
  logFormat := s.get? "log-format"
  validate := s.has "validate"
  keepRules := s.has "keep-rules"

def parse (words : List String) : Except UsageError ServiceOptions :=
  (grammar.parse words).map ofSelection

end ServiceOptions

end FlowTally
