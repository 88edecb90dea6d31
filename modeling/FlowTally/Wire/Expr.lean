import FlowTally.Expr
import FlowTally.Wire.Attribute
import FlowTally.Wire.Kind
/-!
# Expressions on the wire

An expression is its name and a list of attributes that depends on the name. A number that is
missing is zero; a register must be there.
-/

namespace FlowTally.Wire

/-! ## Writing -/

def dataValue (kind : UInt16) (data : Bytes) : Bytes :=
  nested kind (attr DataAttr.value data)

/-- The attributes of an expression that has an encoding. -/
def exprBody : Expr → Except EncodeError Bytes
  | .metadata key target =>
    .ok (nat32 MetadataAttr.target target.number ++ nat32 MetadataAttr.key key.raw)
  | .payload base offset length target =>
    .ok (nat32 PayloadAttr.target target.number ++ nat32 PayloadAttr.base base.raw
      ++ nat32 PayloadAttr.offset offset ++ nat32 PayloadAttr.length length)
  | .compare source op data =>
    .ok (nat32 CompareAttr.source source.number ++ nat32 CompareAttr.op op.raw
      ++ dataValue CompareAttr.data data)
  | .bitwise source target length mask xor =>
    .ok (nat32 BitwiseAttr.source source.number ++ nat32 BitwiseAttr.target target.number
      ++ nat32 BitwiseAttr.length length ++ dataValue BitwiseAttr.mask mask
      ++ dataValue BitwiseAttr.xor xor)
  | .counter packets bytes =>
    .ok (nat64 CounterAttr.bytes bytes ++ nat64 CounterAttr.packets packets)
  | .other name => .error (.unknownExpr name)

def writeExpr (e : Expr) : Except EncodeError Bytes := do
  let name ← string ExprAttr.name e.name
  let body ← exprBody e
  return name ++ nested ExprAttr.data body

/-! ## Reading -/

/-- The attributes of an expression's body, of which the first of each kind counts. -/
structure ExprFields where
  name : String
  items : List Attribute

namespace ExprFields

def find? (f : ExprFields) (kind : UInt16) : Option Bytes :=
  (f.items.find? (·.kind = kind)).map Attribute.data

def nat32 (f : ExprFields) (kind : UInt16) : Except WireError UInt32 :=
  match f.find? kind with
  | some data => readNat32 data
  | none => .ok 0

def nat64 (f : ExprFields) (kind : UInt16) : Except WireError UInt64 :=
  match f.find? kind with
  | some data => readNat64 data
  | none => .ok 0

def register (f : ExprFields) (kind : UInt16) : Except WireError Register :=
  match f.find? kind with
  | some data => (readNat32 data).map Register.mk
  | none => .error (.missingRegister f.name kind)

/-- The bytes in a data attribute, none if it has no value. -/
def value (f : ExprFields) (kind : UInt16) : Except WireError Bytes :=
  match f.find? kind with
  | some data => (firstOf DataAttr.value (attributes data)).map (·.getD [])
  | none => .ok []

end ExprFields

/-- The expression with this name and body. A bitwise operation other than masking is not one that
rules use, and goes by its name alone. -/
def exprOfFields (f : ExprFields) : Except WireError Expr :=
  if f.name = "meta" then do
    let key ← f.nat32 MetadataAttr.key
    let target ← f.register MetadataAttr.target
    return .metadata (MetaKey.ofRaw key) target
  else if f.name = "payload" then do
    let base ← f.nat32 PayloadAttr.base
    let offset ← f.nat32 PayloadAttr.offset
    let length ← f.nat32 PayloadAttr.length
    let target ← f.register PayloadAttr.target
    return .payload (HeaderBase.ofRaw base) offset length target
  else if f.name = "cmp" then do
    let source ← f.register CompareAttr.source
    let op ← f.nat32 CompareAttr.op
    let data ← f.value CompareAttr.data
    return .compare source (CompareOp.ofRaw op) data
  else if f.name = "bitwise" then do
    let op ← f.nat32 BitwiseAttr.op
    if op ≠ 0 then return .other f.name
    let source ← f.register BitwiseAttr.source
    let target ← f.register BitwiseAttr.target
    let length ← f.nat32 BitwiseAttr.length
    let mask ← f.value BitwiseAttr.mask
    let xor ← f.value BitwiseAttr.xor
    return .bitwise source target length mask xor
  else if f.name = "counter" then do
    let packets ← f.nat64 CounterAttr.packets
    let bytes ← f.nat64 CounterAttr.bytes
    return .counter packets bytes
  else .ok (.other f.name)

/-- The name and the body as far as they have been seen. -/
structure ExprDraft where
  name : Option String := none
  body : Bytes := []

def ExprDraft.absorb (s : ExprDraft) (a : Attribute) : Except WireError ExprDraft :=
  if a.kind = ExprAttr.name then (readString a.data).map fun name => { s with name := some name }
  else if a.kind = ExprAttr.data then .ok { s with body := a.data }
  else .ok s

def readExpr (data : Bytes) : Except WireError Expr := do
  let s ← Wire.absorb ExprDraft.absorb {} data
  match s.name with
  | none => throw .unnamedExpr
  | some name => exprOfFields ⟨name, ← (attributes s.body).mapM id⟩

end FlowTally.Wire
