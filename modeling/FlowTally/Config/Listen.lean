import FlowTally.Config
/-!
# Where totals are published

The socket address that the exporter's settings stand for.
-/

namespace FlowTally

structure SocketAddress where
  address : Address
  port : UInt16
  deriving DecidableEq, Repr

/-- An address with colons is put in brackets. -/
def SocketAddress.text (s : SocketAddress) : String :=
  match s.address with
  | .v4 _ => s!"{s.address.text}:{s.port.toNat}"
  | .v6 _ => s!"[{s.address.text}]:{s.port.toNat}"

inductive ListenError where
  | endpoint (value : String)
  | address (value : String)
  deriving DecidableEq, Repr

def ListenError.message : ListenError → String
  | endpoint value => s!"unsupported metrics endpoint '{value}': only '/metrics' is served"
  | address value => s!"invalid metrics listen address '{value}': invalid IP address syntax"

def Exporter.listenSocket (e : Exporter) : Except ListenError SocketAddress :=
  if e.endpoint ≠ "/metrics" then .error (.endpoint e.endpoint)
  else
    match Address.parse? e.address with
    | some a => .ok ⟨a, e.port⟩
    | none => .error (.address e.address)

end FlowTally
