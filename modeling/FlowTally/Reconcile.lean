import FlowTally.Layout
import FlowTally.Rule.OfCounter
import FlowTally.Rule.ToCounter
import FlowTally.Session
import FlowTally.Warning
/-!
# Installing, listing and removing counters

The three operations on the counter rules of a layout. Installing never compares with what is there:
both chains are emptied, deleted and built again in the batch that adds the new rules. Nothing that
an operation staged is left in the batch when it has ended.
-/

namespace FlowTally

/-- What an operation was looking up. -/
inductive Lookup where
  | table (table : Table)
  | chain (name : String)
  deriving DecidableEq, Repr

def Lookup.text : Lookup → String
  | table t => s!"looking up table {t.text}"
  | chain name => s!"looking up chain {name}"

inductive ReconcileError where
  | setupFailed (lookup : Lookup) (cause : TransportError)
  | commitFailed (cause : TransportError)
  /-- The chain is empty if its table could not be looked up. -/
  | listFailed (chain : String) (cause : TransportError)
  | malformedRule (chain : String) (index : Nat) (cause : ForeignRule)
  | cleanupFailed (cause : TransportError)
  | tableNotFound (name : String)
  | chainNotFound (name : String)
  deriving DecidableEq, Repr

namespace ReconcileError

def message : ReconcileError → String
  | setupFailed lookup cause => s!"setup failed while {lookup.text}: {cause.message}"
  | commitFailed cause => s!"setup commit failed: {cause.message}"
  | listFailed chain cause => s!"list counters failed on chain '{chain}': {cause.message}"
  | malformedRule chain index cause =>
    s!"chain '{chain}' rule {index} is not a counter rule: {cause.message}"
  | cleanupFailed cause => s!"cleanup failed: {cause.message}"
  | tableNotFound name => s!"table '{name}' not found"
  | chainNotFound name => s!"chain '{name}' not found"

/-- The transport's error, if it was the transport that failed. -/
def transport? : ReconcileError → Option TransportError
  | setupFailed _ cause | commitFailed cause | listFailed _ cause | cleanupFailed cause =>
    some cause
  | malformedRule .. | tableNotFound _ | chainNotFound _ => none

def isPermissionDenied (e : ReconcileError) : Bool := e.transport? == some .permissionDenied

/-- A rule of someone else's is worth a warning. -/
def warnings : ReconcileError → List Warning
  | malformedRule chain index cause => [.foreignRule chain index cause]
  | _ => []

/-- The message with the messages of the errors that led to it. -/
def chain (e : ReconcileError) : List String :=
  e.message ::
    match e with
    | malformedRule _ _ cause => [cause.message]
    | _ => (e.transport?.map TransportError.chain).getD []

end ReconcileError

/-- What a failure is called outside: by the operation, or by the transport if the caller may not
use it. -/
inductive FailureKind where
  | setup
  | list
  | cleanup
  | transport
  deriving DecidableEq, Repr

def FailureKind.text : FailureKind → String
  | setup => "setup failed"
  | list => "list counters failed"
  | cleanup => "cleanup failed"
  | transport => "transport unavailable"

/-- The status of a program that ends with such a failure. -/
def FailureKind.exitCode : FailureKind → Nat
  | transport => 3
  | setup | list | cleanup => 1

namespace ReconcileError

def kind (e : ReconcileError) : FailureKind :=
  if e.isPermissionDenied then .transport
  else
    match e with
    | setupFailed .. | commitFailed _ => .setup
    | listFailed .. | malformedRule .. | tableNotFound _ | chainNotFound _ => .list
    | cleanupFailed _ => .cleanup

/-- The error as it is shown to someone who only knows that tables are kept in the kernel. -/
def report (e : ReconcileError) : String := s!"nftables error: {e.kind.text}: {e.message}"

end ReconcileError

/-- An operation that may fail. -/
abbrev Operation (α : Type) := ExceptT ReconcileError Session α

namespace Layout

variable (l : Layout)

/-! ## Installing -/

/-- Stages the table unless it is there. -/
def stageTable : Operation Unit :=
  .mk <| .lookupTable l.family l.tableName fun
    | .ok _ => .done (.ok ())
    | .error (.notFound _) => .stage [.addTable l.table] (.done (.ok ()))
    | .error e => .done (.error (.setupFailed (.table l.table) e))

/-- The edits that put a fresh chain with its rules in the place of what was there. -/
def chainEdits (d : Direction) (existing : Option Chain) (cs : List Counter) : List Edit :=
  (match existing with
    | some c => [.flushChain c, .deleteChain c]
    | none => [])
    ++ .addChain (l.chain d) :: cs.map fun c => .addRule (Rule.ofCounter (l.chain d) c)

def stageChain (d : Direction) (cs : List Counter) : Operation Unit :=
  .mk <| .lookupChain l.table (l.chainName d) fun
    | .ok existing => .stage (l.chainEdits d (some existing) cs) (.done (.ok ()))
    | .error (.notFound _) => .stage (l.chainEdits d none cs) (.done (.ok ()))
    | .error e => .done (.error (.setupFailed (.chain (l.chainName d)) e))

def stageSetup (s : CounterSet) : Operation Unit := do
  l.stageTable
  l.stageChain .input s.input
  l.stageChain .output s.output

/-- Replaces whatever is installed by the rules of a set. -/
def setup (s : CounterSet) : Session (Except ReconcileError Unit) :=
  .discard <| (l.stageSetup s).run.bind fun
    | .error e => .discard (.done (.error e))
    | .ok () => .commit fun r => .done (r.mapError .commitFailed)

/-! ## Listing -/

/-- The counters of a chain's rules, up to the first rule that is not a counter's. -/
def readCounters (chain : String) (d : Direction) (index : Nat) :
    List Rule → Except ReconcileError (List Counter)
  | [] => .ok []
  | r :: rest =>
    match r.toCounter with
    | .error e => .error (.malformedRule chain index e)
    | .ok c =>
      (readCounters chain d (index + 1) rest).map fun cs => { c with direction := some d } :: cs

def findTable : Operation Table :=
  .mk <| .lookupTable l.family l.tableName fun
    | .ok t => .done (.ok t)
    | .error (.notFound _) => .done (.error (.tableNotFound l.tableName))
    | .error e => .done (.error (.listFailed "" e))

def listDirection (t : Table) (d : Direction) : Operation (List Counter) :=
  .mk <| .lookupChain t (l.chainName d) fun
    | .error (.notFound _) => .done (.error (.chainNotFound (l.chainName d)))
    | .error e => .done (.error (.listFailed (l.chainName d) e))
    | .ok chain =>
      .drainRules t chain fun
        | .error e => .done (.error (.listFailed (l.chainName d) e))
        | .ok rules => .done (readCounters (l.chainName d) d 0 rules)

/-- Reads every counter and sets it to zero. -/
def listCounters : Operation CounterSet := do
  let t ← l.findTable
  let input ← l.listDirection t .input
  let output ← l.listDirection t .output
  return ⟨input, output⟩

/-- Lists the counters over a transport. -/
def collect {σ : Type} [Transport σ] (s : σ) : Logged (Except ReconcileError CounterSet × σ) :=
  let (r, s) := l.listCounters.run.run s
  match r with
  | .ok set => ⟨(.ok set, s), []⟩
  | .error e => ⟨(.error e, s), e.warnings⟩

/-! ## Removing -/

/-- Removes the table and all that is in it. There may be none. -/
def cleanup : Session (Except ReconcileError Unit) :=
  .discard <| .lookupTable l.family l.tableName fun
    | .error (.notFound _) => .done (.ok ())
    | .error e => .done (.error (.cleanupFailed e))
    | .ok t =>
      .stage [.flushTable t, .deleteTable t] <|
        .commit fun r => .done (r.mapError .cleanupFailed)

end Layout

end FlowTally
