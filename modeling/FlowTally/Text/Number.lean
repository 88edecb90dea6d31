/-!
# Numbers in settings

A number is one or more decimal digits, behind a sign or not. Leading zeros are allowed, and nothing
may stand around it.
-/

namespace FlowTally.Text

def isDigit (c : Char) : Bool := '0' ≤ c && c ≤ '9'

def digitValue (c : Char) : Nat := c.toNat - 48

def digits? (cs : List Char) : Option Nat :=
  if cs.isEmpty || !cs.all isDigit then none
  else some (cs.foldl (fun n c => n * 10 + digitValue c) 0)

/-- A number that may be positive only. -/
def nat? (s : String) : Option Nat :=
  match s.toList with
  | '+' :: cs => digits? cs
  | cs => digits? cs

def int? (s : String) : Option Int :=
  match s.toList with
  | '-' :: cs => (digits? cs).map fun n => -(n : Int)
  | '+' :: cs => (digits? cs).map Int.ofNat
  | cs => (digits? cs).map Int.ofNat

/-! ## Fixed widths -/

def uint16? (n : Int) : Option UInt16 :=
  if 0 ≤ n ∧ n < UInt16.size then some (UInt16.ofNat n.toNat) else none

def uint64? (n : Int) : Option UInt64 :=
  if 0 ≤ n ∧ n < UInt64.size then some (UInt64.ofNat n.toNat) else none

def int32? (n : Int) : Option Int32 :=
  if Int32.minValue.toInt ≤ n ∧ n ≤ Int32.maxValue.toInt then some (Int32.ofInt n) else none

@[simp]
theorem uint16?_toNat (n : UInt16) : uint16? (n.toNat : Int) = some n := by
  have hlt := n.toNat_lt
  simp [uint16?, UInt16.size]
  omega

@[simp]
theorem uint64?_toNat (n : UInt64) : uint64? (n.toNat : Int) = some n := by
  have hlt := n.toNat_lt
  simp [uint64?, UInt64.size]
  omega

@[simp]
theorem int32?_toInt (n : Int32) : int32? n.toInt = some n := by
  have hmin : Int32.minValue.toInt = -2147483648 := by decide
  have hmax : Int32.maxValue.toInt = 2147483647 := by decide
  have hle := n.le_toInt
  have hlt := n.toInt_lt
  rw [int32?, if_pos (by omega), Int32.ofInt_toInt]

end FlowTally.Text
