import FlowTally.Config
/-!
# Log output

How log records are written. What is asked for on the command line wins over the configuration,
and is looked at only when the log is opened.
-/

namespace FlowTally

inductive LogFormat where
  | json
  | pretty
  deriving DecidableEq, Repr

/-- No log is written in this format. -/
structure UnknownLogFormat where
  name : String
  deriving DecidableEq, Repr

def UnknownLogFormat.message (e : UnknownLogFormat) : String :=
  s!"unknown log format '{e.name}', expected 'json' or 'pretty'"

namespace LogFormat

def all : List LogFormat := [json, pretty]

def name : LogFormat → String
  | json => "json"
  | pretty => "pretty"

def ofName (s : String) : Except UnknownLogFormat LogFormat :=
  match all.find? (·.name = s) with
  | some f => .ok f
  | none => .error ⟨s⟩

end LogFormat

namespace General

/-- The settings with those that the command line gives. -/
def overriddenBy (g : General) (logLevel logFormat : Option String) : General where
  logLevel := logLevel.getD g.logLevel
  logFormat := logFormat.getD g.logFormat

def openLog (g : General) : Except UnknownLogFormat LogFormat :=
  LogFormat.ofName g.logFormat

end General

end FlowTally
