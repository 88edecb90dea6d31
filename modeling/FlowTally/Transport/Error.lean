import FlowTally.Errno
import FlowTally.Wire.Error
/-!
# Transport errors

Why an exchange with the kernel, or with something that stands in for it, has failed.
-/

namespace FlowTally

/-- Why the socket failed. -/
inductive SocketError where
  | errno (code : Int)
  | shortSend (sent length : Nat)
  deriving DecidableEq, Repr

def SocketError.message : SocketError → String
  | errno code => Errno.text code
  | shortSend sent length => s!"short netlink send: {sent} of {length} bytes"

/-- The transport calls, each of which can be made to fail. -/
inductive Fault where
  | lookupTable
  | lookupChain
  | drainRules
  | commit
  deriving DecidableEq, Repr

def Fault.name : Fault → String
  | lookupTable => "ListTable"
  | lookupChain => "ListChain"
  | drainRules => "ResetRules"
  | commit => "Commit"

inductive TransportError where
  | notFound (what : String)
  | permissionDenied
  | refused (op : String) (code : Int)
  | injected (fault : Fault)
  | socket (cause : SocketError)
  | encode (cause : EncodeError)
  | protocol (cause : WireError)
  deriving DecidableEq, Repr

namespace TransportError

/-- The error that an error number from the kernel stands for. -/
def ofErrno (op : String) (code : Int) (what : String) : TransportError :=
  if code = Errno.noEntry then notFound what
  else if Errno.isDenial code then permissionDenied
  else refused op code

def isNotFound : TransportError → Bool
  | notFound _ => true
  | _ => false

def message : TransportError → String
  | notFound what => s!"not found: {what}"
  | permissionDenied => "permission denied (CAP_NET_ADMIN required)"
  | refused op code => s!"netlink {op} failed: {Errno.text code}"
  | injected fault => s!"netlink {fault.name} failed: injected failure"
  | socket cause => s!"netlink socket error: {cause.message}"
  | encode cause => s!"encode error: {cause.message}"
  | protocol cause => s!"protocol error: {cause.message}"

/-- The message with the messages of the errors that led to it. Only a failure of the socket is an
error of its own. -/
def chain (e : TransportError) : List String :=
  match e with
  | socket cause => [e.message, cause.message]
  | _ => [e.message]

/-- The error as it is shown to someone who only knows that tables are kept in the kernel. -/
def report (e : TransportError) : String :=
  s!"nftables error: transport unavailable: {e.message}"

end TransportError

end FlowTally
