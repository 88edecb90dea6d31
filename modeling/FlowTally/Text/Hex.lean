/-!
# Hexadecimal numbers

Numbers in lower-case hexadecimal, filled up with zeros to a width.
-/

namespace FlowTally.Text

def hexDigits (width n : Nat) : List Char :=
  let digits := Nat.toDigits 16 n
  List.replicate (width - digits.length) '0' ++ digits

end FlowTally.Text
