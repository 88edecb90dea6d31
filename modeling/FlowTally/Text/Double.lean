/-!
# Whole numbers in double precision

A double holds whole numbers of up to 53 bits; a larger one is rounded to the nearest that it can
hold. It is written with the fewest digits that still read back as the same double, filled up with
zeros. `nearest_shortest` says that nothing is lost by that.
-/

namespace FlowTally.Double

/-- How many of the low bits of a number have no room. -/
def excess (n : Nat) : Nat := n.log2 - 52

/-- The multiple of a unit that is nearest to a number, the even one of two. -/
def roundTo (unit n : Nat) : Nat :=
  let rest := n % unit
  if 2 * rest < unit ∨ (2 * rest = unit ∧ n / unit % 2 = 0) then n - rest else n - rest + unit

/-- The least number that is too large. Those above the largest double are still rounded down to it
if they are less than half a unit away. -/
def limit : Nat := Nat.pow 2 1024 - Nat.pow 2 970

/-- Whether `m * 10 ^ e` is too large for a double. Only for numbers of 309 digits or 310 does it take
a closer look. -/
def overflows (m : Nat) (e : Int) : Bool :=
  let digits : Int := (toString m).length + e
  if m = 0 || digits < 309 then false
  else if 310 < digits then true
  else decide (limit * Nat.pow 10 (-e).toNat ≤ m * Nat.pow 10 e.toNat)

def nearest (n : Nat) : Nat := roundTo (Nat.pow 2 (excess n)) n

/-- The multiple of a unit that reads back as a double, the nearer one if there are two. -/
def atUnit (d unit : Nat) : Option Nat :=
  let low := d - d % unit
  let high := low + unit
  let candidates := if d - low ≤ high - d then [low, high] else [high, low]
  candidates.find? (nearest · = d)

/-- The decimal with the fewest digits that reads back. -/
def shortest (d : Nat) : Nat :=
  ((List.range (d.log2 + 1)).reverse.findSome? fun k => atUnit d (Nat.pow 10 k)).getD d

theorem nearest_of_atUnit {d unit m : Nat} (h : atUnit d unit = some m) : nearest m = d := by
  simpa using List.find?_some h

theorem nearest_shortest {d : Nat} (h : nearest d = d) : nearest (shortest d) = d := by
  unfold shortest
  cases hs : (List.range (d.log2 + 1)).reverse.findSome? fun k => atUnit d (Nat.pow 10 k) with
  | none => exact h
  | some m =>
    obtain ⟨_, _, hk⟩ := List.exists_of_findSome?_eq_some hs
    exact nearest_of_atUnit hk

/-- The text of a whole number that is held as a double. -/
def text (n : Nat) : String := toString (shortest (nearest n))

end FlowTally.Double
