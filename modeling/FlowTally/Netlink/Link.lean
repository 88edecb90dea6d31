import FlowTally.Transport.Error
import FlowTally.Wire.Message
/-!
# Links

What lies on the other side of a socket: the datagrams it will answer with, what becomes of those
that are sent, and a record of them. `Link.converse` reads datagrams until what was asked is
answered, and takes each from the link as a whole.
-/

namespace FlowTally.Netlink

/-- What a receive gives. -/
inductive Receipt where
  | datagram (bytes : Bytes)
  | errno (code : Int)
  deriving DecidableEq, Repr

/-- What a send does, if it does not just send. -/
inductive SendOutcome where
  | errno (code : Int)
  /-- only so many bytes are said to be sent -/
  | short (bytes : Nat)
  deriving DecidableEq, Repr

structure Link where
  inbox : List Receipt := []
  outcomes : List SendOutcome := []
  sent : List Bytes := []
  /-- the error numbers with which making and binding a socket fail, zero if they do not -/
  openErrno : Int := 0
  bindErrno : Int := 0
  deriving Repr

/-- How much of a datagram is received. -/
def receiveLimit : Nat := 65536

namespace Link

/-- Whether a socket can be had. -/
def connect (l : Link) : Except TransportError Unit :=
  let check (code : Int) : Except TransportError Unit :=
    if code = 0 then .ok ()
    else if Errno.isDenial code then .error .permissionDenied
    else .error (.socket (.errno code))
  do check l.openErrno; check l.bindErrno

def send (datagram : Bytes) (l : Link) : Except TransportError Unit × Link :=
  let l := { l with sent := l.sent ++ [datagram] }
  match l.outcomes with
  | [] => (.ok (), l)
  | .errno code :: rest => (.error (.socket (.errno code)), { l with outcomes := rest })
  | .short n :: rest =>
    (if n = datagram.length then .ok () else .error (.socket (.shortSend n datagram.length)),
      { l with outcomes := rest })

end Link

/-! ## Conversations -/

/-- Where a conversation is: at its end, or in a state in which it waits for more. -/
inductive Progress (σ α : Type) where
  | ended (result : Except TransportError α)
  | waiting (state : σ)

/-- What messages mean to someone who waits for an answer. -/
structure Listener (σ α : Type) where
  hear : σ → Wire.Message → Progress σ α
  /-- what the answer is if nothing more is expected at the end of a datagram -/
  settled : σ → Option α

namespace Listener

variable {σ α : Type}

/-- Hears messages until the answer is known. -/
def hearAll (w : Listener σ α) (s : σ) : List Wire.Message → Progress σ α
  | [] =>
    match w.settled s with
    | some a => .ended (.ok a)
    | none => .waiting s
  | m :: rest =>
    match w.hear s m with
    | .ended r => .ended r
    | .waiting s => w.hearAll s rest

/-- Receives until the answer is known, and gives what is left to be received. A receive that was
interrupted is made again. -/
def listen (w : Listener σ α) (s : σ) : List Receipt → Except TransportError α × List Receipt
  | [] => (.error (.socket (.errno Errno.again)), [])
  | .errno code :: rest =>
    if code = Errno.interrupted then w.listen s rest
    else (.error (.socket (.errno code)), rest)
  | .datagram bytes :: rest =>
    match Wire.Message.read (bytes.take receiveLimit) with
    | .error e => (.error (.protocol e), rest)
    | .ok messages =>
      match w.hearAll s messages with
      | .ended r => (r, rest)
      | .waiting s => w.listen s rest

end Listener

/-- Sends a datagram and waits for the answer. -/
def Link.converse {σ α : Type} (w : Listener σ α) (start : σ) (datagram : Bytes) (l : Link) :
    Except TransportError α × Link :=
  match l.send datagram with
  | (.error e, l) => (.error e, l)
  | (.ok (), l) =>
    let (r, inbox) := w.listen start l.inbox
    (r, { l with inbox })

end FlowTally.Netlink
