import FlowTally.CommandLine.Client
import FlowTally.Config.Load
import FlowTally.Netlink.Connection
import FlowTally.Reconcile
import FlowTally.Report.Counting
import FlowTally.Report.Settings
/-!
# The client

Carries out what the command line asks for. Every command starts by loading the configuration; those
that need the kernel open a connection after that.
-/

namespace FlowTally

inductive ClientError where
  | load (cause : LoadError)
  /-- the configuration was to be checked, and it did not pass -/
  | invalidConfig
  | unknownSection (name : String)
  | connect (cause : TransportError)
  | operation (cause : ReconcileError)
  deriving DecidableEq, Repr

namespace ClientError

/-- Whether the kernel cannot be reached, or does not let the caller in. -/
def isUnavailable : ClientError → Bool
  | connect _ => true
  | operation cause =>
    match cause.transport? with
    | some .permissionDenied | some (.socket _) => true
    | _ => false
  | _ => false

def message (e : ClientError) : String :=
  match e with
  | load cause => cause.message
  | invalidConfig => "configuration error: configuration is invalid"
  | unknownSection name =>
    let names := ", ".intercalate (Section.all.map Section.name)
    s!"unknown section: {name} (expected: {names})"
  | connect cause => s!"nftables unavailable: {cause.message}"
  | operation cause =>
    if e.isUnavailable then s!"nftables unavailable: {cause.message}" else cause.message

def exitCode (e : ClientError) : Nat :=
  match e with
  | load cause => if cause.isFileFault then 10 else 2
  | invalidConfig => 2
  | unknownSection _ => 1
  | connect _ | operation _ => if e.isUnavailable then 3 else 1

end ClientError

namespace Client

/-! ## Counters over a transport -/

variable {σ : Type} [Transport σ]

/-- Reads the counters once. -/
def readCounts (l : Layout) (only : Option Direction) (s : σ) :
    Logged (Except ClientError CountsReport × σ) := do
  let (r, s) ← l.collect s
  return ((r.mapError ClientError.operation).map (CountsReport.ofReading · only), s)

/-- Removes the table, which may be gone already. -/
def removeTable (l : Layout) (s : σ) : Except ClientError RemovalReport × σ :=
  let (r, s) := l.cleanup.run s
  ((r.mapError ClientError.operation).map fun () => ⟨l.table⟩, s)

/-! ## Commands -/

/-- What a command leaves behind: what it wrote, how it failed, and the link to the kernel. -/
structure Outcome where
  output : String := ""
  failure : Option ClientError := none
  link : Netlink.Link

/-- What is outside of the client. -/
structure World where
  /-- whether reports are colored -/
  color : Bool := false
  content : FileContent
  environment : Environment := []
  link : Netlink.Link := {}

namespace World

def load (w : World) (i : Invocation) : Logged (Except LoadError Config) :=
  (Config.load i.config w.content w.environment).run

def fail (w : World) (e : ClientError) : Outcome := { failure := some e, link := w.link }

/-- Writes a report. -/
def report {α : Type} [Report α] (w : World) (i : Invocation) (a : α) : Outcome :=
  { output := i.format.render w.color a, link := w.link }

/-- Writes a report, or fails. -/
def answer {α : Type} [Report α] (w : World) (i : Invocation) : Except ClientError α → Outcome
  | .ok a => w.report i a
  | .error e => w.fail e

/-- Says whether a configuration could be loaded. -/
def verdict (w : World) (i : Invocation) : Except LoadError Config → Outcome
  | .ok c => w.report i (⟨i.config, .ok c.counters.size⟩ : ValidityReport)
  | .error e =>
    { w.report i (⟨i.config, .error e.message⟩ : ValidityReport) with failure := some .invalidConfig }

/-- The section of a name, or none if all are wanted. -/
def sectionOf : Option String → Except ClientError (Option Section)
  | none => .ok none
  | some name =>
    match Section.ofName? name with
    | some s => .ok (some s)
    | none => .error (.unknownSection name)

/-- Goes on with a connection to the kernel. -/
def withConnection {α : Type} [Report α] (w : World) (i : Invocation)
    (run : Netlink.Connection → Logged (Except ClientError α × Netlink.Connection)) :
    Logged Outcome :=
  match w.link.connect with
  | .error e => pure (w.fail (.connect e))
  | .ok () => do
    let (r, c) ← run { link := w.link }
    return { w with link := c.link }.answer i r

/-- Carries out an invocation. -/
def run (w : World) (i : Invocation) : Logged Outcome := do
  match i.request, ← w.load i with
  | .validate, loaded => return w.verdict i loaded
  | _, .error e => return w.fail (.load e)
  | .show name, .ok c =>
    let chosen := (sectionOf name).map fun only => (⟨i.config, only, c⟩ : SettingsReport)
    return w.answer i chosen
  | .compile only, .ok c => return w.report i (RulesReport.ofCounters c.layout c.counters only)
  | .counters only, .ok c =>
    w.withConnection i fun connection => do
      Logged.warn (.countersReset c.layout.table)
      readCounts c.layout only connection
  | .cleanup, .ok c =>
    w.withConnection i fun connection => pure (removeTable c.layout connection)

end World

end Client

end FlowTally
