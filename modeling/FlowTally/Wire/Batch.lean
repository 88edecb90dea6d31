import FlowTally.Edit
import FlowTally.Wire.Message
import FlowTally.Wire.Object
/-!
# Batches on the wire

A batch is sent as one datagram: a message for each edit, each asking for an acknowledgement,
between two markers that ask for none. The messages are numbered from left to right, by any numbers.
-/

namespace FlowTally.Wire

/-- The message of an edit, not yet numbered. -/
def writeEdit (e : Edit) : Except EncodeError Message :=
  let message (kind flags : UInt16) (payload : Bytes) : Message :=
    ⟨kind, Flag.request ||| Flag.ack ||| flags, 0, payload⟩
  match e with
  | .addTable t => (writeTable t).map (message MessageKind.newTable Flag.create)
  | .addChain c => (writeChain c).map (message MessageKind.newChain Flag.create)
  | .addRule r => (writeRule r).map (message MessageKind.newRule (Flag.create ||| Flag.append))
  | .flushChain c => (writeRuleScope c.table (some c.name)).map (message MessageKind.deleteRule 0)
  | .deleteChain c => (writeChainName c.table c.name).map (message MessageKind.deleteChain 0)
  | .flushTable t => (writeRuleScope t none).map (message MessageKind.deleteRule 0)
  | .deleteTable t => (writeTable t).map (message MessageKind.deleteTable 0)

/-- A message that opens or closes a batch. -/
def marker (kind : UInt16) : Message := ⟨kind, Flag.request, 0, header 0 10⟩

/-- The numbers after `last`. They wrap at 32 bits. -/
def following (last : UInt32) (i : Nat) : UInt32 := last + UInt32.ofNat (i + 1)

def number (seq : Nat → UInt32) (messages : List Message) : List Message :=
  messages.mapIdx fun i m => { m with seq := seq i }

/-- The messages of a batch, under the numbers of a sequence. -/
def batchMessages (seq : Nat → UInt32) (b : Batch) : Except EncodeError (List Message) := do
  let edits ← b.mapM writeEdit
  return number seq (marker MessageKind.batchBegin :: edits ++ [marker MessageKind.batchEnd])

/-- The numbers that are waited for, those of the edits. -/
def acknowledged (messages : List Message) : List UInt32 :=
  (messages.filter fun m => m.flags &&& Flag.ack ≠ 0).map Message.seq

def datagram (messages : List Message) : Bytes := messages.flatMap Message.write

/-- How many numbers a batch uses up. One that fails has used those of the messages before the
failing edit. -/
def numbersUsed (b : Batch) : Nat :=
  match b.mapM writeEdit with
  | .ok edits => edits.length + 2
  | .error _ => (b.takeWhile fun e => (writeEdit e).isOk).length + 1

end FlowTally.Wire
