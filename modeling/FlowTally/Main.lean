import FlowTally.Client
import FlowTally.Daemon
/-!
# The client program

Reads the configuration file and the environment, carries out the command line and writes what comes
of it. No netlink socket can be opened from here, so commands that need the kernel find it out of
reach.
-/

namespace FlowTally.Program

/-- The error number that opening a socket fails with. -/
def noSockets : Int := 93

/-- The number of an error that reading a file gives. -/
def errno : IO.Error → Int
  | .noFileOrDirectory .. => Errno.noEntry
  | .permissionDenied .. => 13
  | .inappropriateType _ code _ => code.toInt32.toInt.natAbs
  | _ => 5

def readFile (path : String) : IO FileContent := do
  try
    return .ok (← IO.FS.readBinFile path).data.toList
  catch e => return .error (errno e)

def readEnvironment : IO Environment :=
  Environment.names.filterMapM fun name => do
    return (← IO.getEnv name).map fun value => (name, Bytes.ofString value)

/-- Carries out an invocation and gives the exit code. -/
def perform (i : Invocation) : IO UInt32 := do
  let stdout ← IO.getStdout
  let w : Client.World := {
    color := ← stdout.isTty
    content := ← readFile i.config
    environment := ← readEnvironment
    link := { openErrno := noSockets } }
  let r := w.run i
  for warning in r.warnings do
    IO.eprintln s!"WARN {warning.message}"
  IO.print r.value.output
  match r.value.failure with
  | none => return 0
  | some e =>
    IO.eprintln s!"error: {e.message}"
    return UInt32.ofNat e.exitCode

/-- Says why a command line is not carried out. -/
def refuse (e : CommandLine.UsageError) : IO UInt32 := do
  match e with
  | .helpWanted => Invocation.usage.forM IO.println
  | .versionWanted => IO.println s!"flowmon {version}"
  | _ => Invocation.usage.forM IO.eprintln
  return UInt32.ofNat e.exitCode

end FlowTally.Program

def main (args : List String) : IO UInt32 :=
  match FlowTally.Invocation.parse args with
  | .ok i => FlowTally.Program.perform i
  | .error e => FlowTally.Program.refuse e
