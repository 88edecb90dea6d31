import FlowTally.Bytes
/-!
# Rule expressions

A rule is a list of expressions over numbered registers: loads, masks, comparisons and a counter.
The kinds of key, header base and operator that have a name here are canonical: `ofRaw_raw` says
that the number of a canonical one leads back to it.
-/

namespace FlowTally

/-- A numbered slot that carries a loaded value to the expressions behind it. -/
structure Register where
  number : UInt32
  deriving DecidableEq, Repr

namespace Register

/-- The one register that compiled rules use. -/
def scratch : Register := ⟨1⟩

def text (r : Register) : String := s!"reg {r.number.toNat}"

end Register

/-! ## Numbered kinds -/

/-- What a metadata load reads. -/
inductive MetaKey where
  | protocol
  | other (raw : UInt32)
  deriving DecidableEq, Repr

namespace MetaKey

def raw : MetaKey → UInt32
  | protocol => 16
  | other n => n

def ofRaw (n : UInt32) : MetaKey := if n = 16 then protocol else other n

/-- A kind that has a name goes by it. -/
def Canonical (k : MetaKey) : Prop := ofRaw k.raw = k

theorem raw_ofRaw (n : UInt32) : (ofRaw n).raw = n := by
  unfold ofRaw; split <;> simp_all [raw]

theorem canonical_ofRaw (n : UInt32) : (ofRaw n).Canonical := by
  simp [Canonical, raw_ofRaw]

end MetaKey

/-- The header that a payload load counts its offset from. -/
inductive HeaderBase where
  | link
  | network
  | transport
  | other (raw : UInt32)
  deriving DecidableEq, Repr

namespace HeaderBase

def raw : HeaderBase → UInt32
  | link => 0
  | network => 1
  | transport => 2
  | other n => n

def ofRaw (n : UInt32) : HeaderBase :=
  if n = 0 then link else if n = 1 then network else if n = 2 then transport else other n

def Canonical (b : HeaderBase) : Prop := ofRaw b.raw = b

def text : HeaderBase → String
  | link => "link"
  | network => "network"
  | transport => "transport"
  | other n => s!"base {n.toNat}"

theorem raw_ofRaw (n : UInt32) : (ofRaw n).raw = n := by
  unfold ofRaw
  repeat' split
  all_goals simp_all [raw]

theorem canonical_ofRaw (n : UInt32) : (ofRaw n).Canonical := by
  simp [Canonical, raw_ofRaw]

end HeaderBase

/-- How a comparison relates the register to its data. -/
inductive CompareOp where
  | equal
  | other (raw : UInt32)
  deriving DecidableEq, Repr

namespace CompareOp

def raw : CompareOp → UInt32
  | equal => 0
  | other n => n

def ofRaw (n : UInt32) : CompareOp := if n = 0 then equal else other n

def Canonical (o : CompareOp) : Prop := ofRaw o.raw = o

def text : CompareOp → String
  | equal => "eq"
  | other n => s!"op{n.toNat}"

theorem raw_ofRaw (n : UInt32) : (ofRaw n).raw = n := by
  unfold ofRaw; split <;> simp_all [raw]

theorem canonical_ofRaw (n : UInt32) : (ofRaw n).Canonical := by
  simp [Canonical, raw_ofRaw]

end CompareOp

/-! ## Expressions -/

inductive Expr where
  /-- loads a property of the packet -/
  | metadata (key : MetaKey) (target : Register)
  /-- loads `length` bytes at `offset` of a header -/
  | payload (base : HeaderBase) (offset length : UInt32) (target : Register)
  /-- lets the rule go on only if the register compares with `data` as asked -/
  | compare (source : Register) (op : CompareOp) (data : Bytes)
  /-- `target := (source &&& mask) ^^^ xor` -/
  | bitwise (source target : Register) (length : UInt32) (mask xor : Bytes)
  /-- counts the packet -/
  | counter (packets bytes : UInt64)
  /-- any other expression, of which only the name is kept -/
  | other (name : String)
  deriving DecidableEq, Repr

namespace Expr

def name : Expr → String
  | metadata .. => "meta"
  | payload .. => "payload"
  | compare .. => "cmp"
  | bitwise .. => "bitwise"
  | counter .. => "counter"
  | other name => name

def isCounter : Expr → Bool
  | counter .. => true
  | _ => false

/-- The expression with its counts set to zero, if it has any. -/
def reset : Expr → Expr
  | counter .. => counter 0 0
  | e => e

/-- The expression with its counts raised, if it has any. -/
def bump (packets bytes : UInt64) : Expr → Expr
  | counter p b => counter (p + packets) (b + bytes)
  | e => e

/-- The expression in the notation of a rule listing. -/
def text : Expr → String
  | metadata .protocol target => s!"[ meta load l4proto => {target.text} ]"
  | metadata (.other n) target => s!"[ meta load key {n.toNat} => {target.text} ]"
  | payload base offset length target =>
    s!"[ payload load {length.toNat}b @ {base.text} header + {offset.toNat} => {target.text} ]"
  | compare source op data => s!"[ cmp {op.text} {source.text} 0x{Bytes.hex data} ]"
  | bitwise source target _ mask xor =>
    s!"[ bitwise {target.text} = ( {source.text} & 0x{Bytes.hex mask} ) ^ 0x{Bytes.hex xor} ]"
  | counter packets bytes => s!"[ counter pkts {packets.toNat} bytes {bytes.toNat} ]"
  | other name => s!"[ {name} ]"

end Expr

end FlowTally
