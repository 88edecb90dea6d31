/-!
# Data trees

What a configuration text says, before it is known what it means. Tables keep the order of their
entries. Numbers with a fraction, and dates, are kept as they are written: nothing takes them. So
are numbers that cannot be read, and even a key that is passed over must not have one of those.
-/

namespace FlowTally

inductive Data where
  | null
  | bool (value : Bool)
  | int (value : Int)
  | float (literal : String)
  /-- a number with digits that are none, or one that is too large -/
  | unreadable (literal : String)
  | datetime (literal : String)
  | text (value : String)
  | array (items : List Data)
  | table (entries : List (String × Data))
  deriving Repr, Inhabited

namespace Data

def isNull : Data → Bool
  | null => true
  | _ => false

/-- Whether the tree is a table. -/
def isTable : Data → Bool
  | table _ => true
  | _ => false

def nat (n : Nat) : Data := int n

mutual

/-- Whether all numbers in the tree can be read. -/
def isReadable : Data → Bool
  | unreadable _ => false
  | array items => areReadable items
  | table entries => haveReadable entries
  | _ => true

def areReadable : List Data → Bool
  | [] => true
  | d :: rest => d.isReadable && areReadable rest

def haveReadable : List (String × Data) → Bool
  | [] => true
  | (_, d) :: rest => d.isReadable && haveReadable rest

end

end Data

end FlowTally
