import FlowTally.Netlink.Link
import FlowTally.Session
import FlowTally.Wire.Batch
/-!
# Connections

A transport over a link. Every request has a number of its own, and only replies under that number
are taken for an answer to it.
-/

namespace FlowTally.Netlink

open Wire

/-- The end of a link that a client holds: the number it used last and what it has staged. -/
structure Connection where
  link : Link
  lastSeq : UInt32 := 0
  batch : Batch := []
  deriving Repr

/-! ## Requests -/

/-- A request that is sent as a message of its own. -/
structure Request where
  kind : UInt16
  flags : UInt16
  payload : Bytes
  /-- what is asked, for an error message -/
  op : String
  /-- what is asked about, for an error message -/
  object : String

namespace Request

/-- Gathers the replies. An error message with code zero or a message that ends a dump closes the
list; so does a single reply if no acknowledgement was asked for. -/
def listener (r : Request) (seq : UInt32) : Listener (List Message) (List Message) where
  hear replies m :=
    if m.seq ≠ seq then .waiting replies
    else if m.kind = MessageKind.error then
      .ended <|
        match m.errorCode with
        | .error e => .error (.protocol e)
        | .ok code =>
          if code = 0 then .ok replies else .error (.ofErrno r.op code r.object)
    else if m.kind = MessageKind.done then .ended (.ok replies)
    else if m.flags &&& Flag.multi = 0 ∧ r.flags &&& Flag.ack = 0 then
      .ended (.ok (replies ++ [m]))
    else .waiting (replies ++ [m])
  settled _ := none

end Request

namespace Connection

def request (r : Request) (c : Connection) : Except TransportError (List Message) × Connection :=
  let seq := c.lastSeq + 1
  let message : Message := ⟨r.kind, Flag.request ||| r.flags, seq, r.payload⟩
  let (result, link) := c.link.converse (r.listener seq) [] message.write
  (result, { c with link, lastSeq := seq })

/-- Makes a request whose payload may not have an encoding, and reads the replies. -/
def ask {α : Type} (payload : Except EncodeError Bytes) (r : Bytes → Request)
    (read : List Message → Except TransportError α) (c : Connection) :
    Except TransportError α × Connection :=
  match payload with
  | .error e => (.error (.encode e), c)
  | .ok payload =>
    let (result, c) := c.request (r payload)
    (result.bind read, c)

/-- Reads the first reply of a kind. -/
def firstReply {α : Type} (kind : UInt16) (read : Bytes → Except WireError α) (object : String)
    (replies : List Message) : Except TransportError α :=
  match replies.find? (·.kind = kind) with
  | none => .error (.notFound object)
  | some m => (read m.payload).mapError .protocol

def lookupTable (family : Family) (name : String) :
    Connection → Except TransportError Table × Connection :=
  let t : Table := ⟨family, name⟩
  let object := s!"table {t.text}"
  ask (Wire.writeTable t) (⟨MessageKind.getTable, Flag.ack, ·, "get table", object⟩)
    (firstReply MessageKind.newTable Wire.readTable object)

def lookupChain (t : Table) (name : String) :
    Connection → Except TransportError Chain × Connection :=
  let object := s!"chain {t.text} {name}"
  ask (Wire.writeChainName t name) (⟨MessageKind.getChain, Flag.ack, ·, "get chain", object⟩)
    (firstReply MessageKind.newChain Wire.readChain object)

/-- The rules of a chain among the replies to a dump, which may hold rules of other chains. -/
def rulesOf (t : Table) (chain : String) (replies : List Message) :
    Except TransportError (List Rule) := do
  let rules ← (replies.filter (·.kind = MessageKind.newRule)).mapM fun m =>
    (Wire.readRule m.payload).mapError .protocol
  return rules.filter fun r => r.table.name = t.name ∧ r.chain = chain

def drainRules (t : Table) (chain : Chain) :
    Connection → Except TransportError (List Rule) × Connection :=
  let object := s!"chain {t.text} {chain.name}"
  ask (Wire.writeRuleScope t (some chain.name))
    (⟨MessageKind.resetRules, Flag.dump, ·, "reset rules", object⟩) (rulesOf t chain.name)

/-! ## Commits -/

/-- What a message of a batch was about. -/
def editText (b : Batch) (acks : List UInt32) (seq : UInt32) : String :=
  ((acks.zip b).find? (·.1 = seq)).elim "batch" fun (_, e) => e.text

/-- Waits until every edit is acknowledged. An error under any number of the batch is the end, also
one that comes behind the last acknowledgement in the same datagram. -/
def commitListener (b : Batch) (messages : List Message) : Listener (List UInt32) Unit where
  hear pending m :=
    if m.kind ≠ MessageKind.error ∨ m.seq ∉ messages.map Message.seq then .waiting pending
    else
      match m.errorCode with
      | .error e => .ended (.error (.protocol e))
      | .ok code =>
        if code = 0 then .waiting (pending.filter (· ≠ m.seq))
        else
          let object := editText b (Wire.acknowledged messages) m.seq
          .ended (.error (.ofErrno "commit" code object))
  settled pending := if pending.isEmpty then some () else none

/-- Sends the batch and empties it. A batch that cannot be encoded is not sent. -/
def commit (c : Connection) : Except TransportError Unit × Connection :=
  if c.batch.isEmpty then (.ok (), c)
  else
    let c' : Connection :=
      { c with batch := [], lastSeq := c.lastSeq + UInt32.ofNat (Wire.numbersUsed c.batch) }
    match Wire.batchMessages (Wire.following c.lastSeq) c.batch with
    | .error e => (.error (.encode e), c')
    | .ok messages =>
      let (result, link) :=
        c.link.converse (commitListener c.batch messages) (Wire.acknowledged messages)
          (Wire.datagram messages)
      (result, { c' with link })

instance : Transport Connection where
  lookupTable := lookupTable
  lookupChain := lookupChain
  drainRules := drainRules
  batch c := c.batch
  withBatch b c := { c with batch := b }
  commit := commit

end Connection

end FlowTally.Netlink
