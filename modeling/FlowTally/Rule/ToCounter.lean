import FlowTally.Counter
import FlowTally.Rule.Field
/-!
# The counter of a rule

One pass over a rule keeps track of which field each register was last loaded with, and every
comparison sets that field of the counter. A rule with an expression that no counter leads to is
foreign, and the first such expression says why.
-/

namespace FlowTally

/-- Why a rule is not a counter's. -/
inductive ForeignRule where
  | unsupportedExpr (name : String)
  | unsupportedMetaKey (raw : UInt32)
  | unsupportedOperator (raw : UInt32)
  | unsupportedLoad (base : HeaderBase) (offset length : UInt32)
  | unknownRegister (number : UInt32)
  | dataLength (field : Field) (actual : Nat)
  | unknownProtocol (number : UInt8)
  | noCounter
  | secondCounter
  | noLabel
  deriving DecidableEq, Repr

def ForeignRule.message : ForeignRule → String
  | unsupportedExpr name => s!"unsupported expression '{name}'"
  | unsupportedMetaKey raw => s!"unsupported meta key {raw.toNat}"
  | unsupportedOperator raw => s!"unsupported comparison operator {raw.toNat}"
  | unsupportedLoad base offset length =>
    s!"unsupported payload load: {base.text} header offset {offset.toNat} length {length.toNat}"
  | unknownRegister number => s!"register {number.toNat} used before any load"
  | dataLength field actual =>
    s!"{field.name} comparison expects {field.width} bytes, got {actual}"
  | unknownProtocol number => s!"unknown protocol number {number.toNat}"
  | noCounter => "rule has no counter"
  | secondCounter => "rule has more than one counter"
  | noLabel => "rule has no label"

/-! ## Fields -/

/-- Sets the field to what a packet is compared with, of which only the length may be wrong. -/
def Counter.setField (c : Counter) (f : Field) (data : Bytes) : Except ForeignRule Counter :=
  if data.length ≠ f.width then .error (.dataLength f data.length)
  else
    match f with
    | .protocol =>
      let n := UInt8.ofNat (Bytes.toNatBE data)
      match Protocol.ofNumber? n with
      | some p => .ok { c with protocol := some p }
      | none => .error (.unknownProtocol n)
    | .sourceV4 | .sourceV6 => .ok { c with source := Address.ofOctets? data }
    | .destinationV4 | .destinationV6 => .ok { c with destination := Address.ofOctets? data }
    | .sourcePort => .ok { c with sourcePort := some (UInt16.ofNat (Bytes.toNatBE data)) }
    | .destinationPort =>
      .ok { c with destinationPort := some (UInt16.ofNat (Bytes.toNatBE data)) }
    | .flags => .ok { c with flags := ⟨UInt8.ofNat (Bytes.toNatBE data)⟩ }

namespace Rule

/-! ## One pass -/

/-- What is known of a counter after some of its rule's expressions. -/
structure Reading where
  counter : Counter := {}
  /-- the field each register was last loaded with, latest load first -/
  registers : List (Register × Field) := []
  counted : Bool := false

namespace Reading

def field? (s : Reading) (r : Register) : Option Field := s.registers.lookup r

def loaded (s : Reading) (r : Register) (f : Field) : Reading :=
  { s with registers := (r, f) :: s.registers }

/-- Takes in one expression. A mask is always the same one, so only its register is looked at. -/
def absorb (s : Reading) : Expr → Except ForeignRule Reading
  | .metadata .protocol target => .ok (s.loaded target .protocol)
  | .metadata (.other raw) _ => .error (.unsupportedMetaKey raw)
  | .payload base offset length target =>
    match Field.ofLoad? base offset length with
    | some f => .ok (s.loaded target f)
    | none => .error (.unsupportedLoad base offset length)
  | .bitwise source _ _ _ _ =>
    match s.field? source with
    | some _ => .ok s
    | none => .error (.unknownRegister source.number)
  | .compare _ (.other raw) _ => .error (.unsupportedOperator raw)
  | .compare source .equal data =>
    match s.field? source with
    | some f => (s.counter.setField f data).map fun c => { s with counter := c }
    | none => .error (.unknownRegister source.number)
  | .counter packets bytes =>
    if s.counted then .error .secondCounter
    else .ok { s with counter := { s.counter with packets, bytes }, counted := true }
  | .other name => .error (.unsupportedExpr name)

end Reading

/-- The counter that the rule stands for, with its totals and without a direction. -/
def toCounter (r : Rule) : Except ForeignRule Counter := do
  let s ← r.exprs.foldlM Reading.absorb {}
  if !s.counted then throw .noCounter
  match r.comment with
  | some label => if label.isEmpty then throw .noLabel else return { s.counter with label }
  | none => throw .noLabel

end Rule

end FlowTally
