import FlowTally.Text.Escape
/-!
# What can go wrong on the wire

A request may hold something that has no encoding, and a reply may be malformed.
-/

namespace FlowTally

/-- Why a request cannot be encoded. -/
inductive EncodeError where
  | nulInName (name : String)
  | unknownExpr (name : String)
  | commentTooLong
  | nulInComment
  deriving DecidableEq, Repr

/-- The longest comment in bytes. Its terminator is one more. -/
def maxCommentBytes : Nat := 127

def EncodeError.message : EncodeError → String
  | nulInName name => s!"'{Text.escape name}' contains a NUL byte"
  | unknownExpr name => s!"cannot encode expression '{name}'"
  | commentTooLong => s!"comment longer than {maxCommentBytes} bytes"
  | nulInComment => "comment contains a NUL byte"

/-- Why a received message is malformed. -/
inductive WireError where
  | shortError
  | shortHeader
  | messageLength (length offset total : Nat)
  | attributeLength (kind : UInt16) (length : Nat)
  | integerWidth (expected actual : Nat)
  | notUtf8
  | unsupportedFamily (number : UInt8)
  | unnamedTable
  | incompleteChain
  | incompleteRule
  | unnamedExpr
  | missingRegister (expr : String) (kind : UInt16)
  deriving DecidableEq, Repr

def WireError.message : WireError → String
  | shortError => "short NLMSG_ERROR"
  | shortHeader => "short nfgenmsg"
  | messageLength length offset total =>
    s!"netlink message length {length} at offset {offset} exceeds datagram of {total}"
  | attributeLength kind length => s!"attribute {kind.toNat} has bad length {length}"
  | integerWidth expected actual => s!"expected {expected}-byte integer, got {actual}"
  | notUtf8 => "string attribute is not UTF-8"
  | unsupportedFamily number => s!"unsupported table family {number.toNat}"
  | unnamedTable => "table without a name"
  | incompleteChain => "chain without table or name"
  | incompleteRule => "rule without table or chain"
  | unnamedExpr => "expression without a name"
  | missingRegister expr kind => s!"{expr}: missing register attribute {kind.toNat}"

end FlowTally
