/-!
# Byte strings

Byte strings are lists, so that every reader is a recursion on its input.
Fixed-width integers go in and out of them in either byte order:
`toNatLE_ofNatLE` and `ofNatLE_toNatLE` say that nothing is lost as long as the
number fits its width. Text goes in and out as UTF-8.
-/

namespace FlowTally

abbrev Bytes := List UInt8

namespace Bytes

/-! ## Integers -/

/-- The low `k` bytes of `n`, least significant first. -/
def ofNatLE : Nat → Nat → Bytes
  | 0, _ => []
  | k + 1, n => UInt8.ofNat n :: ofNatLE k (n / 256)

def toNatLE : Bytes → Nat
  | [] => 0
  | b :: rest => b.toNat + 256 * toNatLE rest

/-- The low `k` bytes of `n`, most significant first. -/
def ofNatBE (k n : Nat) : Bytes := (ofNatLE k n).reverse

def toNatBE (bs : Bytes) : Nat := toNatLE bs.reverse

/-- How many numbers have room in `k` bytes. -/
def capacity : Nat → Nat
  | 0 => 1
  | k + 1 => 256 * capacity k

@[simp]
theorem length_ofNatLE (k n : Nat) : (ofNatLE k n).length = k := by
  induction k generalizing n with
  | zero => rfl
  | succ k ih => simp [ofNatLE, ih]

@[simp]
theorem length_ofNatBE (k n : Nat) : (ofNatBE k n).length = k := by simp [ofNatBE]

theorem toNatLE_ofNatLE (k n : Nat) : toNatLE (ofNatLE k n) = n % capacity k := by
  induction k generalizing n with
  | zero => simp [ofNatLE, toNatLE, capacity, Nat.mod_one]
  | succ k ih =>
    have low : (UInt8.ofNat n).toNat = n % 256 := by simp
    rw [ofNatLE, toNatLE, ih, low, capacity, Nat.mod_mul]

theorem toNatBE_ofNatBE (k n : Nat) : toNatBE (ofNatBE k n) = n % capacity k := by
  simp [toNatBE, ofNatBE, toNatLE_ofNatLE]

theorem ofNatLE_toNatLE (bs : Bytes) : ofNatLE bs.length (toNatLE bs) = bs := by
  induction bs with
  | nil => rfl
  | cons b rest ih =>
    have hb := b.toNat_lt
    have h1 : (b.toNat + 256 * toNatLE rest) / 256 = toNatLE rest := by omega
    have h2 : UInt8.ofNat (b.toNat + 256 * toNatLE rest) = b := by
      apply UInt8.toNat_inj.1
      simp only [UInt8.toNat_ofNat']
      omega
    simp [ofNatLE, toNatLE, h1, h2, ih]

/-- Only so much of a number is written as there is room for. -/
theorem ofNatLE_mod (k n : Nat) : ofNatLE k (n % capacity k) = ofNatLE k n := by
  have h := ofNatLE_toNatLE (ofNatLE k n)
  rwa [length_ofNatLE, toNatLE_ofNatLE] at h

theorem ofNatBE_toNatBE (bs : Bytes) : ofNatBE bs.length (toNatBE bs) = bs := by
  have h := ofNatLE_toNatLE bs.reverse
  simp only [List.length_reverse] at h
  simp [ofNatBE, toNatBE, h]

/-! ## Text -/

/-- The UTF-8 bytes of a string. -/
def ofString (s : String) : Bytes := s.toUTF8.data.toList

/-- The string a byte string spells, if it is UTF-8. -/
def toString? (bs : Bytes) : Option String := String.fromUTF8? ⟨bs.toArray⟩

@[simp]
theorem toString?_ofString (s : String) : toString? (ofString s) = some s := by
  show String.fromUTF8? s.toUTF8 = some s
  simp only [String.fromUTF8?, String.toUTF8_eq_toByteArray, dif_pos s.isValidUTF8]
  rfl

/-- Everything before the first NUL byte. -/
def untilNul (bs : Bytes) : Bytes := bs.takeWhile (· != 0)

/-! ## Slices and hexadecimal -/

/-- The `len` bytes from `start`, if the string has them all. -/
def slice? (bs : Bytes) (start len : Nat) : Option Bytes :=
  if start + len ≤ bs.length then some ((bs.drop start).take len) else none

def zeros (n : Nat) : Bytes := List.replicate n 0

def hexDigit (n : Nat) : Char := if n < 10 then Char.ofNat (48 + n) else Char.ofNat (87 + n)

/-- Two lower-case hexadecimal digits for each byte. -/
def hex (bs : Bytes) : String :=
  String.ofList (bs.flatMap fun b => [hexDigit (b.toNat / 16), hexDigit (b.toNat % 16)])

end Bytes

end FlowTally
