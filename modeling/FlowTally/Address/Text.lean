import FlowTally.Address
/-!
# Addresses as text

Reading takes the text forms of RFC 4291 and nothing around them: four decimal octets without
leading zeros, or eight groups of hexadecimal digits of which one run may be left out as `::` and
the last two may be written as four octets. Writing gives the canonical form of RFC 5952.
-/

namespace FlowTally.Address

/-! ## Reading -/

/-- The value of a digit of a base up to sixteen. -/
def digit? (base : Nat) (c : Char) : Option Nat :=
  let v :=
    if '0' ≤ c ∧ c ≤ '9' then c.toNat - 48
    else if 'a' ≤ c ∧ c ≤ 'f' then c.toNat - 87
    else if 'A' ≤ c ∧ c ≤ 'F' then c.toNat - 55
    else base
  if v < base then some v else none

/-- A number of one to `width` digits, with what follows it. All digits that stand there belong to
the number. -/
def number? (base width : Nat) (s : List Char) : Option (Nat × List Char) :=
  let ds := (s.takeWhile fun c => (digit? base c).isSome).filterMap (digit? base)
  if ds.isEmpty || width < ds.length then none
  else some (ds.foldl (fun n d => n * base + d) 0, s.drop ds.length)

/-- A decimal number below 256 without leading zeros. -/
def octet? (s : List Char) : Option (UInt8 × List Char) := do
  let (n, rest) ← number? 10 3 s
  if n < 256 ∧ (s.head? ≠ some '0' ∨ rest.length + 1 = s.length) then some (UInt8.ofNat n, rest)
  else none

/-- The rest of a text that starts with `c`. -/
def after? (c : Char) : List Char → Option (List Char)
  | d :: rest => if d = c then some rest else none
  | [] => none

/-- Four octets with a point before each but the first. -/
def dotted? (s : List Char) : Option (Bytes × List Char) := do
  let (a, s) ← octet? s
  let (b, s) ← octet? (← after? '.' s)
  let (c, s) ← octet? (← after? '.' s)
  let (d, s) ← octet? (← after? '.' s)
  some ([a, b, c, d], s)

/-- Groups of two octets, as found at the start of a text. -/
structure Groups where
  octets : Bytes
  /-- whether the last two were written as four octets -/
  dotted : Bool
  rest : List Char

/-- At most `limit` groups with a colon before each but the first. Four octets in decimal stand for
two groups and end the list. -/
def groups (first : Bool) : Nat → List Char → Groups
  | 0, s => ⟨[], false, s⟩
  | limit + 1, s =>
    match if first then some s else after? ':' s with
    | none => ⟨[], false, s⟩
    | some t =>
      match if limit = 0 then none else dotted? t with
      | some (octets, rest) => ⟨octets, true, rest⟩
      | none =>
        match number? 16 4 t with
        | none => ⟨[], false, s⟩
        | some (n, rest) =>
          let g := groups false limit rest
          { g with octets := Bytes.ofNatBE 2 n ++ g.octets }

/-- Sixteen octets. The groups after `::` are at most as many as leave one group for it. -/
def colons? (s : List Char) : Option (Bytes × List Char) := do
  let front := groups true 8 s
  if front.octets.length = 16 then return (front.octets, front.rest)
  if front.dotted then none
  let s ← after? ':' (← after? ':' front.rest)
  let back := groups true (7 - front.octets.length / 2) s
  let gap := Bytes.zeros (16 - front.octets.length - back.octets.length)
  return (front.octets ++ gap ++ back.octets, back.rest)

/-- Reads an address that fills the text. -/
def parse? (s : String) : Option Address := do
  let (octets, rest) ← (dotted? s.toList).orElse fun _ => colons? s.toList
  if rest.isEmpty then ofOctets? octets else none

/-! ## Writing -/

def dottedText (bs : Bytes) : String := ".".intercalate (bs.map fun b => toString b.toNat)

/-- The two-octet groups of a byte string. -/
def groupsOf : Bytes → List Nat
  | a :: b :: rest => (a.toNat * 256 + b.toNat) :: groupsOf rest
  | _ => []

def groupText (n : Nat) : String := String.ofList (Nat.toDigits 16 n)

def colonText (gs : List Nat) : String := ":".intercalate (gs.map groupText)

/-- Where the longest run of zero groups starts and how long it is; of equal runs the first. -/
def longestZeros (gs : List Nat) : Nat × Nat :=
  let runs := (List.range gs.length).map fun i => (i, ((gs.drop i).takeWhile (· == 0)).length)
  runs.foldl (fun best r => if best.2 < r.2 then r else best) (0, 0)

/-- The canonical form. Octets behind the mapping mark are written in decimal, and the longest run
of two or more zero groups is left out. -/
def text : Address → String
  | v4 o => dottedText o.bytes
  | v6 o =>
    if o.bytes.take 12 = Bytes.zeros 10 ++ [0xff, 0xff] then
      "::ffff:" ++ dottedText (o.bytes.drop 12)
    else
      let gs := groupsOf o.bytes
      let (start, count) := longestZeros gs
      if count < 2 then colonText gs
      else colonText (gs.take start) ++ "::" ++ colonText (gs.drop (start + count))

end FlowTally.Address
