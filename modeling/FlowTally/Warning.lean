import FlowTally.Rule.ToCounter
/-!
# Warnings

What is worth telling although nothing failed.
-/

namespace FlowTally

inductive Warning where
  /-- a counter asks for flags that rules do not look at -/
  | neverMatches (label : String) (flags : TcpFlags)
  | environmentIgnored (name value : String)
  | foreignRule (chain : String) (index : Nat) (cause : ForeignRule)
  | pollFailed (error : String)
  | countersReset (table : Table)
  deriving DecidableEq, Repr

def Warning.message : Warning → String
  | neverMatches .. =>
    "only fin, syn, rst and ack are compared; this counter will never match"
  | environmentIgnored .. => "failed to parse env var, ignoring"
  | foreignRule .. => "foreign rule in monitored chain"
  | pollFailed _ => "poll failed, skipping cycle"
  | countersReset _ => "reading counters resets them in the kernel"

/-- A value with the warnings that came up on the way to it, first one first. -/
structure Logged (α : Type) where
  value : α
  warnings : List Warning := []
  deriving Repr

namespace Logged

variable {α β : Type}

def warn (w : Warning) : Logged Unit := ⟨(), [w]⟩

def bind (m : Logged α) (f : α → Logged β) : Logged β :=
  let r := f m.value
  ⟨r.value, m.warnings ++ r.warnings⟩

instance : Monad Logged where
  pure a := ⟨a, []⟩
  bind := bind

end Logged

end FlowTally
