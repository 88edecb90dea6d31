import FlowTally.Rule
import FlowTally.Wire.Comment
import FlowTally.Wire.Expr
/-!
# Tables, chains and rules on the wire

The payloads of requests and replies about an object. Of an attribute that is repeated the last one
counts, except that lists of expressions add up.
-/

namespace FlowTally.Wire

/-! ## Writing -/

def writeTable (t : Table) : Except EncodeError Bytes := do
  let name ← string TableAttr.name t.name
  return header t.family.number 0 ++ name

/-- Names a chain without describing it. -/
def writeChainName (t : Table) (chain : String) : Except EncodeError Bytes := do
  let table ← string ChainAttr.table t.name
  let name ← string ChainAttr.name chain
  return header t.family.number 0 ++ table ++ name

def writeHook (h : Hook) : Bytes :=
  nat32 HookAttr.number h.direction.hookNumber ++ nat32 HookAttr.priority h.priority.toUInt32

/-- What makes a chain a base chain: a filter on its hook that accepts what it does not judge. -/
def writeAttachment (h : Hook) : Except EncodeError Bytes := do
  let type ← string ChainAttr.type "filter"
  return nested ChainAttr.hook (writeHook h) ++ nat32 ChainAttr.policy 1 ++ type

def writeChain (c : Chain) : Except EncodeError Bytes := do
  let name ← writeChainName c.table c.name
  match c.hook with
  | none => return name
  | some h => return name ++ (← writeAttachment h)

/-- Names the rules of a chain, or those of a whole table. -/
def writeRuleScope (t : Table) (chain : Option String) : Except EncodeError Bytes := do
  let table ← string RuleAttr.table t.name
  let chain ← match chain with
    | none => pure []
    | some name => string RuleAttr.chain name
  return header t.family.number 0 ++ table ++ chain

def writeExprs (es : List Expr) : Except EncodeError Bytes := do
  let items ← es.mapM fun e => (writeExpr e).map (nested ListAttr.elem)
  return items.flatten

def writeRule (r : Rule) : Except EncodeError Bytes := do
  let scope ← writeRuleScope r.table (some r.chain)
  let exprs ← writeExprs r.exprs
  let comment ← match r.comment with
    | none => pure []
    | some c => (userdata c).map (attr RuleAttr.userdata)
  return scope ++ nested RuleAttr.exprs exprs ++ comment

/-! ## Reading -/

def readTable (payload : Bytes) : Except WireError Table := do
  let (family, body) ← readHeader payload
  match ← firstOf TableAttr.name (attributes body) with
  | some data => return ⟨family, ← readString data⟩
  | none => throw .unnamedTable

structure HookDraft where
  number : Option UInt32 := none
  priority : Int32 := 0

def HookDraft.absorb (s : HookDraft) (a : Attribute) : Except WireError HookDraft :=
  if a.kind = HookAttr.number then (readNat32 a.data).map fun n => { s with number := some n }
  else if a.kind = HookAttr.priority then
    (readNat32 a.data).map fun n => { s with priority := n.toInt32 }
  else .ok s

/-- A hook where no traffic is counted is no hook. -/
def readHook (data : Bytes) : Except WireError (Option Hook) := do
  let s ← Wire.absorb HookDraft.absorb {} data
  return (s.number.bind Direction.ofHookNumber?).map fun d => ⟨d, s.priority⟩

structure ChainDraft where
  table : Option String := none
  name : Option String := none
  hook : Option Hook := none

def ChainDraft.absorb (s : ChainDraft) (a : Attribute) : Except WireError ChainDraft :=
  if a.kind = ChainAttr.table then (readString a.data).map fun t => { s with table := some t }
  else if a.kind = ChainAttr.name then (readString a.data).map fun n => { s with name := some n }
  else if a.kind = ChainAttr.hook then (readHook a.data).map fun h => { s with hook := h }
  else .ok s

def readChain (payload : Bytes) : Except WireError Chain := do
  let (family, body) ← readHeader payload
  let s ← Wire.absorb ChainDraft.absorb {} body
  match s.table, s.name with
  | some table, some name => return ⟨⟨family, table⟩, name, s.hook⟩
  | _, _ => throw .incompleteChain

/-- The expressions of a list, behind those read before. -/
def readExprs (before : List Expr) (data : Bytes) : Except WireError (List Expr) :=
  Wire.absorb
    (fun es a =>
      if a.kind = ListAttr.elem then (readExpr a.data).map fun e => es ++ [e] else .ok es)
    before data

structure RuleDraft where
  table : Option String := none
  chain : Option String := none
  handle : Option UInt64 := none
  exprs : List Expr := []
  comment : Option String := none

def RuleDraft.absorb (s : RuleDraft) (a : Attribute) : Except WireError RuleDraft :=
  if a.kind = RuleAttr.table then (readString a.data).map fun t => { s with table := some t }
  else if a.kind = RuleAttr.chain then (readString a.data).map fun c => { s with chain := some c }
  else if a.kind = RuleAttr.handle then (readNat64 a.data).map fun h => { s with handle := some h }
  else if a.kind = RuleAttr.exprs then
    (readExprs s.exprs a.data).map fun es => { s with exprs := es }
  else if a.kind = RuleAttr.userdata then .ok { s with comment := readComment a.data }
  else .ok s

def readRule (payload : Bytes) : Except WireError Rule := do
  let (family, body) ← readHeader payload
  let s ← Wire.absorb RuleDraft.absorb {} body
  match s.table, s.chain with
  | some table, some chain => return ⟨⟨family, table⟩, chain, s.handle, s.exprs, s.comment⟩
  | _, _ => throw .incompleteRule

end FlowTally.Wire
