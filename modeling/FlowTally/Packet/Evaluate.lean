import FlowTally.Packet
import FlowTally.Rule
/-!
# Rules at work

Running a rule on a packet goes through its expressions in order until one of them does not let the
packet pass. The counters it came by have then counted the packet.
-/

namespace FlowTally

/-- What the registers hold, latest load first. -/
abbrev Registers := List (Register × Bytes)

namespace Packet

def header (p : Packet) : HeaderBase → Option Bytes
  | .network => some p.network
  | .transport => some p.transport
  | .link | .other _ => none

/-- A bitwise operation goes as far as the shortest of its three operands. -/
def combine (value mask xor : Bytes) : Bytes :=
  ((value.zip mask).zip xor).map fun ((v, m), x) => (v &&& m) ^^^ x

/-- The registers behind an expression, or `none` if the packet does not pass it. -/
def step (p : Packet) (regs : Registers) : Expr → Option Registers
  | .metadata .protocol target => some ((target, [p.protocol]) :: regs)
  | .metadata (.other _) _ => none
  | .payload base offset length target => do
    let value ← (← p.header base).slice? offset.toNat length.toNat
    return (target, value) :: regs
  | .bitwise source target _ mask xor => do
    let value ← regs.lookup source
    return (target, combine value mask xor) :: regs
  | .compare source .equal data => if regs.lookup source = some data then some regs else none
  | .compare _ (.other _) _ => none
  | .counter _ _ => some regs
  | .other _ => none

/-- Runs expressions on a packet: what becomes of them, and how many counters it passed. -/
def run (p : Packet) (regs : Registers) : List Expr → List Expr × Nat
  | [] => ([], 0)
  | e :: rest =>
    match p.step regs e with
    | none => (e :: rest, 0)
    | some regs =>
      let (rest, hits) := p.run regs rest
      (e.bump 1 p.length :: rest, hits + if e.isCounter then 1 else 0)

/-- Runs a rule on a packet. -/
def evaluate (p : Packet) (r : Rule) : Rule × Nat :=
  let (exprs, hits) := p.run [] r.exprs
  ({ r with exprs }, hits)

end Packet

end FlowTally
