import FlowTally.Data
import FlowTally.Text.Double
import FlowTally.Text.Number
/-!
# Unquoted values

Truth values, numbers and dates. A date has to be one of the calendar. A number is looked at twice:
its form decides whether the document can be read, and what it amounts to only matters to one who
asks for it. So some words pass for integers that are none, and a number may be too large.
-/

namespace FlowTally.Toml

open Text (isDigit digitValue)

/-! ## Numbers -/

/-- The digits of a run in which single underscores may stand between digits. -/
def run? (isDigit : Char → Bool) : List Char → Option (List Char)
  | [] => none
  | [c] => if isDigit c then some [c] else none
  | c :: '_' :: rest => if isDigit c then (run? isDigit rest).map (c :: ·) else none
  | c :: rest => if isDigit c then (run? isDigit rest).map (c :: ·) else none

def decimal (digits : List Char) : Nat := digits.foldl (fun n c => n * 10 + digitValue c) 0

/-- A decimal number without leading zeros. -/
def whole? (s : List Char) : Option Nat :=
  match run? isDigit s with
  | some ['0'] => some 0
  | some ('0' :: _) => none
  | some ds => some (decimal ds)
  | none => none

def digitOf? (base : Nat) (c : Char) : Option Nat :=
  let v :=
    if isDigit c then digitValue c
    else if 'a' ≤ c ∧ c ≤ 'f' then c.toNat - 87
    else if 'A' ≤ c ∧ c ≤ 'F' then c.toNat - 55
    else base
  if v < base then some v else none

def based? (base : Nat) (s : List Char) : Option Nat := do
  let ds ← run? (fun c => (digitOf? base c).isSome) s
  return (ds.filterMap (digitOf? base)).foldl (fun n d => n * base + d) 0

/-- An integer. Only decimal ones have a sign. -/
def int? : List Char → Option Int
  | '0' :: 'x' :: s => (based? 16 s).map Int.ofNat
  | '0' :: 'o' :: s => (based? 8 s).map Int.ofNat
  | '0' :: 'b' :: s => (based? 2 s).map Int.ofNat
  | '+' :: s => (whole? s).map Int.ofNat
  | '-' :: s => (whole? s).map fun n => -(n : Int)
  | s => (whole? s).map Int.ofNat

/-- Integers have up to 128 bits, with a sign or without. -/
def isInRange (n : Int) : Bool :=
  decide (-Int.ofNat (Nat.pow 2 127) ≤ n) && decide (n < Int.ofNat (Nat.pow 2 128))

def unsigned : List Char → List Char
  | '+' :: s => s
  | '-' :: s => s
  | s => s

/-- Whether every underscore stands between two digits, which may be those above nine. -/
def isGrouped : List Char → Bool
  | '_' :: _ => false
  | [_, '_'] => false
  | a :: '_' :: b :: rest =>
    (digitOf? 16 a).isSome && (digitOf? 16 b).isSome && isGrouped (b :: rest)
  | _ :: rest => isGrouped rest
  | [] => true

/-- Whether a word passes for an integer. With a mark for the base it need not have digits, and
behind a first underscore it need not have only digits. -/
def passesForInt (s : List Char) : Bool :=
  s == ['0', 'x'] || s == ['0', 'o'] || s == ['0', 'b'] ||
    match unsigned s with
    | [] | '0' :: _ => false
    | s =>
      (s.dropWhile isDigit).head? == some '_' && isGrouped s &&
        s.all fun c => c != '.' && c != 'e' && c != 'E'

/-- An exponent, which is zero if none stands here. -/
def exponent? : List Char → Option Int
  | [] => some 0
  | e :: s =>
    if e == 'e' || e == 'E' then do
      let n := Int.ofNat (decimal (← run? isDigit (unsigned s)))
      return if s.head? == some '-' then -n else n
    else none

/-- A number with a fraction or an exponent: `m` and `e` if it amounts to `m * 10 ^ e`, whatever its
sign. -/
def decimal? (s : List Char) : Option (Nat × Int) := do
  let s := unsigned s
  let ds := s.takeWhile fun c => isDigit c || c == '_'
  let n ← whole? ds
  match s.drop ds.length with
  | [] => none
  | '.' :: s =>
    let ds := s.takeWhile fun c => isDigit c || c == '_'
    let places ← run? isDigit ds
    let e ← exponent? (s.drop ds.length)
    return (n * Nat.pow 10 places.length + decimal places, e - places.length)
  | s => return (n, ← exponent? s)

/-- A number that is given as not finite, or as none. -/
def isNonFinite (s : List Char) : Bool :=
  unsigned s == ['i', 'n', 'f'] || unsigned s == ['n', 'a', 'n']

/-! ## Dates -/

def two? (a b : Char) : Option Nat :=
  if isDigit a && isDigit b then some (digitValue a * 10 + digitValue b) else none

def isLeapYear (y : Nat) : Bool := y % 4 == 0 && (y % 100 != 0 || y % 400 == 0)

def daysInMonth (year month : Nat) : Nat :=
  if month == 2 then if isLeapYear year then 29 else 28
  else if [4, 6, 9, 11].contains month then 30
  else 31

def isDate (s : List Char) : Bool :=
  match s with
  | [a, b, c, d, '-', e, f, '-', g, h] =>
    match two? a b, two? c d, two? e f, two? g h with
    | some hi, some lo, some month, some day =>
      1 ≤ month && month ≤ 12 && 1 ≤ day && day ≤ daysInMonth (hi * 100 + lo) month
    | _, _, _, _ => false
  | _ => false

def isBelow (n : Nat) (v : Option Nat) : Bool := v.any (· < n)

def isClock (a b c d : Char) : Bool := isBelow 24 (two? a b) && isBelow 60 (two? c d)

/-- Hours and minutes, then perhaps seconds, of which there may be one too many, and perhaps a
fraction of them. -/
def isTime : List Char → Bool
  | [a, b, ':', c, d] => isClock a b c d
  | [a, b, ':', c, d, ':', e, f] => isClock a b c d && isBelow 61 (two? e f)
  | a :: b :: ':' :: c :: d :: ':' :: e :: f :: '.' :: s =>
    isClock a b c d && isBelow 61 (two? e f) && !s.isEmpty && s.all isDigit
  | _ => false

def isOffset : List Char → Bool
  | [] => true
  | [z] => z == 'Z' || z == 'z'
  | [sign, a, b, ':', c, d] => (sign == '+' || sign == '-') && isClock a b c d
  | _ => false

/-- A time behind a date may be one of another place. -/
def isZonedTime (s : List Char) : Bool :=
  let time := s.takeWhile fun c => isDigit c || c == ':' || c == '.'
  isTime time && isOffset (s.drop time.length)

def isDatetime (s : List Char) : Bool :=
  isDate s || isTime s ||
    (isDate (s.take 10) &&
      match s.drop 10 with
      | sep :: time => (sep == 'T' || sep == 't' || sep == ' ') && isZonedTime time
      | [] => false)

/-! ## All -/

/-- The value that is written with these characters. -/
def scalar? (s : List Char) : Option Data :=
  let word := String.ofList s
  if word = "true" then some (.bool true)
  else if word = "false" then some (.bool false)
  else
    match int? s, decimal? s with
    | some n, _ => some (if isInRange n then .int n else .unreadable word)
    | none, some (m, e) => some (if Double.overflows m e then .unreadable word else .float word)
    | none, none =>
      if isNonFinite s then some (.float word)
      else if passesForInt s then some (.unreadable word)
      else if isDatetime s then some (.datetime word)
      else none

/-- Whether a character ends an unquoted value. A quote does not: it opens a string only where a
value begins. -/
def endsScalar (c : Char) : Bool :=
  [' ', '\t', '\n', '\r', '#', ',', '[', ']', '\x7b', '\x7d', '='].contains c

/-- The characters of an unquoted value, and what follows. A blank may stand between a date and a
time. -/
def scalarWord (s : List Char) : List Char × List Char :=
  let word := s.takeWhile (!endsScalar ·)
  match s.drop word.length with
  | ' ' :: c :: rest =>
    if isDate word && isDigit c then
      let time := (c :: rest).takeWhile (!endsScalar ·)
      (word ++ ' ' :: time, (c :: rest).drop time.length)
    else (word, ' ' :: c :: rest)
  | rest => (word, rest)

def readScalar (s : List Char) : Option (Data × List Char) :=
  let (word, rest) := scalarWord s
  (scalar? word).map (·, rest)

end FlowTally.Toml
