import FlowTally.Bytes
import FlowTally.Family
import FlowTally.Wire.Error
/-!
# Attributes

A message body is a list of attributes, each a length, a kind and its data, padded to four bytes.
The length takes in the four bytes that it and the kind fill, but not the padding, and wraps at
sixteen bits. Data may be a list of attributes in turn.

Reading goes on until fewer than four bytes are left or an attribute does not fit, so that at most
the last item is an error.
-/

namespace FlowTally.Wire

structure Attribute where
  kind : UInt16
  data : Bytes
  deriving DecidableEq, Repr

/-- How many bytes are missing to a multiple of four. -/
def padding (n : Nat) : Nat := (4 - n % 4) % 4

/-! ## Writing -/

def attr (kind : UInt16) (data : Bytes) : Bytes :=
  Bytes.ofNatLE 2 (4 + data.length) ++ Bytes.ofNatLE 2 kind.toNat ++ data
    ++ Bytes.zeros (padding data.length)

/-- An attribute whose data is a list of attributes, marked by the top bit of its kind. -/
def nested (kind : UInt16) (children : Bytes) : Bytes := attr (kind ||| 0x8000) children

def nat32 (kind : UInt16) (n : UInt32) : Bytes := attr kind (Bytes.ofNatBE 4 n.toNat)

def nat64 (kind : UInt16) (n : UInt64) : Bytes := attr kind (Bytes.ofNatBE 8 n.toNat)

/-- A string with its terminator. A terminator inside it would cut it short. -/
def string (kind : UInt16) (s : String) : Except EncodeError Bytes :=
  let bs := Bytes.ofString s
  if 0 ∈ bs then .error (.nulInName s) else .ok (attr kind (bs ++ [0]))

/-- The four bytes before the attributes of a message: family, version and resource number. -/
def header (family : UInt8) (resource : Nat) : Bytes := [family, 0] ++ Bytes.ofNatBE 2 resource

/-! ## Reading -/

/-- The attributes of a byte string. The two top bits of a kind are marks and do not count. -/
def attributes : Bytes → List (Except WireError Attribute)
  | l₀ :: l₁ :: k₀ :: k₁ :: rest =>
    let length := Bytes.toNatLE [l₀, l₁]
    let kind := UInt16.ofNat (Bytes.toNatLE [k₀, k₁] % 0x4000)
    let data := rest.take (length - 4)
    if length < 4 ∨ data.length < length - 4 then [.error (.attributeLength kind length)]
    else .ok ⟨kind, data⟩ :: attributes (rest.drop (length - 4 + padding length))
  | _ => []
termination_by buf => buf.length
decreasing_by simp only [List.length_drop, List.length_cons]; omega

/-- Takes in the attributes of a byte string one after the other, up to the first error. -/
def absorb {σ : Type} (step : σ → Attribute → Except WireError σ) (start : σ) (buf : Bytes) :
    Except WireError σ :=
  (attributes buf).foldlM (fun s item => item.bind (step s)) start

/-- The data of the first attribute of a kind. What comes after it is not looked at. -/
def firstOf (kind : UInt16) : List (Except WireError Attribute) → Except WireError (Option Bytes)
  | [] => .ok none
  | .error e :: _ => .error e
  | .ok a :: rest => if a.kind = kind then .ok (some a.data) else firstOf kind rest

/-- An integer that fills its attribute. -/
def readNat (width : Nat) (data : Bytes) : Except WireError Nat :=
  if data.length = width then .ok (Bytes.toNatBE data)
  else .error (.integerWidth width data.length)

def readNat32 (data : Bytes) : Except WireError UInt32 := (readNat 4 data).map UInt32.ofNat

def readNat64 (data : Bytes) : Except WireError UInt64 := (readNat 8 data).map UInt64.ofNat

/-- A string up to its terminator, or to the end if it has none. -/
def readString (data : Bytes) : Except WireError String :=
  match Bytes.toString? (Bytes.untilNul data) with
  | some s => .ok s
  | none => .error .notUtf8

/-- The family of a message and the bytes of its attributes. -/
def readHeader : Bytes → Except WireError (Family × Bytes)
  | number :: _ :: _ :: _ :: body =>
    match Family.ofNumber? number with
    | some family => .ok (family, body)
    | none => .error (.unsupportedFamily number)
  | _ => .error .shortHeader

end FlowTally.Wire
