import FlowTally.Address
/-!
# Table families

A table sees packets of one version of IP or of both, and its family says which.
-/

namespace FlowTally

inductive Family where
  | ip
  | ip6
  | inet
  deriving DecidableEq, Repr

/-- No family has this name. -/
structure UnknownFamily where
  name : String
  deriving DecidableEq, Repr

def UnknownFamily.message (e : UnknownFamily) : String :=
  s!"unknown table family '{e.name}', expected ip, ip6 or inet"

namespace Family

instance : Inhabited Family := ⟨ip⟩

def all : List Family := [ip, ip6, inet]

def name : Family → String
  | ip => "ip"
  | ip6 => "ip6"
  | inet => "inet"

/-- Names are read in lower case only. -/
def ofName? (s : String) : Option Family := all.find? (·.name = s)

def ofName (s : String) : Except UnknownFamily Family :=
  match ofName? s with
  | some f => .ok f
  | none => .error ⟨s⟩

/-- The protocol family number at the start of every message about the table. -/
def number : Family → UInt8
  | ip => 2
  | ip6 => 10
  | inet => 1

def ofNumber? (n : UInt8) : Option Family := all.find? (·.number = n)

/-- Whether packets of this family can carry the address. -/
def accepts : Family → Address → Bool
  | ip, a => a.isV4
  | ip6, a => !a.isV4
  | inet, _ => true

@[simp]
theorem ofName?_name (f : Family) : ofName? f.name = some f := by
  cases f <;> decide

@[simp]
theorem ofNumber?_number (f : Family) : ofNumber? f.number = some f := by
  cases f <;> decide

theorem ofNumber?_eq_some_iff {n : UInt8} {f : Family} : ofNumber? n = some f ↔ f.number = n := by
  constructor
  · intro h
    simpa using List.find?_some h
  · rintro rfl
    exact ofNumber?_number f

end Family

end FlowTally
