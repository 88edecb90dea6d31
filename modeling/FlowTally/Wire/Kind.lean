/-!
# Numbers of the wire format

The types of messages and attributes, and the flags of messages.
-/

namespace FlowTally.Wire

/-! ## Messages -/

namespace MessageKind

def error : UInt16 := 2
def done : UInt16 := 3
def batchBegin : UInt16 := 0x10
def batchEnd : UInt16 := 0x11

/-- Messages about tables, chains and rules have the number of their subsystem, 10, in the upper
byte. -/
def ofObject (n : UInt16) : UInt16 := 0x0a00 ||| n

def newTable : UInt16 := ofObject 0
def getTable : UInt16 := ofObject 1
def deleteTable : UInt16 := ofObject 2
def newChain : UInt16 := ofObject 3
def getChain : UInt16 := ofObject 4
def deleteChain : UInt16 := ofObject 5
def newRule : UInt16 := ofObject 6
def deleteRule : UInt16 := ofObject 8
def resetRules : UInt16 := ofObject 25

end MessageKind

namespace Flag

def request : UInt16 := 0x001
def multi : UInt16 := 0x002
def ack : UInt16 := 0x004
def dump : UInt16 := 0x300
def create : UInt16 := 0x400
def append : UInt16 := 0x800

end Flag

/-! ## Attributes -/

namespace TableAttr

def name : UInt16 := 1

end TableAttr

namespace ChainAttr

def table : UInt16 := 1
def name : UInt16 := 3
def hook : UInt16 := 4
def policy : UInt16 := 5
def type : UInt16 := 7

end ChainAttr

namespace HookAttr

def number : UInt16 := 1
def priority : UInt16 := 2

end HookAttr

namespace RuleAttr

def table : UInt16 := 1
def chain : UInt16 := 2
def handle : UInt16 := 3
def exprs : UInt16 := 4
def userdata : UInt16 := 7

end RuleAttr

namespace ListAttr

def elem : UInt16 := 1

end ListAttr

namespace ExprAttr

def name : UInt16 := 1
def data : UInt16 := 2

end ExprAttr

namespace DataAttr

def value : UInt16 := 1

end DataAttr

namespace MetadataAttr

def target : UInt16 := 1
def key : UInt16 := 2

end MetadataAttr

namespace PayloadAttr

def target : UInt16 := 1
def base : UInt16 := 2
def offset : UInt16 := 3
def length : UInt16 := 4

end PayloadAttr

namespace CompareAttr

def source : UInt16 := 1
def op : UInt16 := 2
def data : UInt16 := 3

end CompareAttr

namespace BitwiseAttr

def source : UInt16 := 1
def target : UInt16 := 2
def length : UInt16 := 3
def mask : UInt16 := 4
def xor : UInt16 := 5
def op : UInt16 := 6

end BitwiseAttr

namespace CounterAttr

def bytes : UInt16 := 1
def packets : UInt16 := 2

end CounterAttr

end FlowTally.Wire
