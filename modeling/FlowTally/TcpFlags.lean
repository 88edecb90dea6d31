/-!
# TCP flags

The eight flags of byte 13 of a TCP header, and sets of them held as that byte.
`mem_toList_iff` says that the list view of a set holds exactly its members, and
`ofList_toList` that the set can be made from it again; names are read in any case and written in
lower case.
-/

namespace FlowTally

inductive TcpFlag where
  | fin
  | syn
  | rst
  | psh
  | ack
  | urg
  | ece
  | cwr
  deriving DecidableEq, Repr

/-- No flag has this name. -/
structure UnknownFlag where
  name : String
  deriving DecidableEq, Repr

def UnknownFlag.message (e : UnknownFlag) : String := s!"invalid TCP flag: {e.name}"

namespace TcpFlag

/-- In header bit order. -/
def all : List TcpFlag := [fin, syn, rst, psh, ack, urg, ece, cwr]

def bit : TcpFlag → UInt8
  | fin => 0x01
  | syn => 0x02
  | rst => 0x04
  | psh => 0x08
  | ack => 0x10
  | urg => 0x20
  | ece => 0x40
  | cwr => 0x80

def name : TcpFlag → String
  | fin => "fin"
  | syn => "syn"
  | rst => "rst"
  | psh => "psh"
  | ack => "ack"
  | urg => "urg"
  | ece => "ece"
  | cwr => "cwr"

/-- Reads a flag name, in which ASCII case does not matter. -/
def ofName (s : String) : Except UnknownFlag TcpFlag :=
  match all.find? (·.name = s.toLower) with
  | some flag => .ok flag
  | none => .error ⟨s⟩

theorem mem_all (f : TcpFlag) : f ∈ all := by cases f <;> decide

@[simp]
theorem ofName_name (f : TcpFlag) : ofName f.name = .ok f := by
  have hlower : f.name.toLower = f.name := by
    apply String.toList_inj.1
    show (f.name.map Char.toLower).toList = f.name.toList
    rw [String.toList_map]
    cases f <;> decide
  have hfind : all.find? (·.name = f.name) = some f := by cases f <;> decide
  simp [ofName, hlower, hfind]

end TcpFlag

/-- A set of flags, as the header byte. -/
structure TcpFlags where
  bits : UInt8
  deriving DecidableEq, Repr

namespace TcpFlags

def empty : TcpFlags := ⟨0⟩

instance : Inhabited TcpFlags := ⟨empty⟩

/-- The flags that a compiled rule looks at: FIN, SYN, RST and ACK. A rule that asks for any other
flag compares a byte from which that bit is gone, and so never matches. -/
def matchable : TcpFlags := ⟨0x17⟩

def isEmpty (s : TcpFlags) : Bool := s.bits == 0

def contains (s : TcpFlags) (f : TcpFlag) : Bool := s.bits &&& f.bit != 0

def insert (s : TcpFlags) (f : TcpFlag) : TcpFlags := ⟨s.bits ||| f.bit⟩

def ofList (fs : List TcpFlag) : TcpFlags := fs.foldl insert empty

/-- In header bit order. -/
def toList (s : TcpFlags) : List TcpFlag := TcpFlag.all.filter s.contains

/-- The requested flags that no compiled rule looks at. -/
def unmatchable (s : TcpFlags) : TcpFlags := ⟨s.bits &&& ~~~matchable.bits⟩

def names (s : TcpFlags) : List String := s.toList.map TcpFlag.name

def text (s : TcpFlags) : String := ",".intercalate s.names

theorem mem_toList_iff {s : TcpFlags} {f : TcpFlag} : f ∈ s.toList ↔ s.contains f = true := by
  simp [toList, TcpFlag.mem_all]

theorem eq_empty_of_isEmpty {s : TcpFlags} (h : s.isEmpty = true) : s = empty := by
  cases s
  simpa [isEmpty, empty] using h

@[simp]
theorem ofList_toList (s : TcpFlags) : ofList s.toList = s := by
  have h : ∀ n : Fin 256, ofList (toList ⟨.ofFin n⟩) = ⟨.ofFin n⟩ := by decide +kernel
  exact h s.bits.toFin

end TcpFlags

end FlowTally
